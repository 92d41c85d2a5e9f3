import RenderKernel.Geometry.Normal
import RenderKernel.Geometry.Point
import RenderKernel.Proofs.Geometry.Length

/-!
# Components in three dimensions

Vectors, points and normals in three dimensions are determined by three numbers, and the length
of a vector is computed from them.  Over exact numbers a vector other than zero can be made
into a unit vector (`Vec.normalize_isUnit`).
-/

universe u

namespace RenderKernel

variable {S : Type u}

theorem Column.toList_three (u : Vector S 3) :
  u.toList = [u.get 0, u.get 1, u.get 2]
  := by
  obtain ⟨⟨l⟩, h⟩ := u
  match l, h with
  | [_, _, _], _ => rfl

theorem Column.ext_three {u v : Vector S 3} (h₀ : u.get 0 = v.get 0)
    (h₁ : u.get 1 = v.get 1) (h₂ : u.get 2 = v.get 2) :
  u = v
  := by
  apply Vector.toList_inj.mp
  rw [toList_three, toList_three, h₀, h₁, h₂]

theorem Column.any_three (u : Vector S 3) (p : S → Bool) :
  u.any p = true ↔ p (u.get 0) = true ∨ p (u.get 1) = true ∨ p (u.get 2) = true
  := by
  rw [← Vector.any_toList, toList_three]
  simp only [List.any_cons, List.any_nil, Bool.or_false, Bool.or_eq_true]

namespace Vec

/-- Vectors with the same three components are equal. -/
theorem ext_three {a b : Vec S 3} (hx : a.x = b.x) (hy : a.y = b.y) (hz : a.z = b.z) :
  a = b
  := by
  obtain ⟨u⟩ := a
  obtain ⟨v⟩ := b
  congr 1
  apply Column.ext_three hx hy hz

theorem add_x [Add S] (a b : Vec S 3) :
  (a + b).x = a.x + b.x
  := Vector.getElem_zipWith _

theorem add_y [Add S] (a b : Vec S 3) :
  (a + b).y = a.y + b.y
  := Vector.getElem_zipWith _

theorem add_z [Add S] (a b : Vec S 3) :
  (a + b).z = a.z + b.z
  := Vector.getElem_zipWith _

theorem neg_x [Neg S] (a : Vec S 3) :
  (-a).x = -a.x
  := Vector.getElem_map _ _

theorem neg_y [Neg S] (a : Vec S 3) :
  (-a).y = -a.y
  := Vector.getElem_map _ _

theorem neg_z [Neg S] (a : Vec S 3) :
  (-a).z = -a.z
  := Vector.getElem_map _ _

theorem zeros_x [Zero S] :
  (Primitive.zeros : Vec S 3).x = 0
  := Vector.getElem_replicate _

theorem zeros_y [Zero S] :
  (Primitive.zeros : Vec S 3).y = 0
  := Vector.getElem_replicate _

theorem zeros_z [Zero S] :
  (Primitive.zeros : Vec S 3).z = 0
  := Vector.getElem_replicate _

theorem scale_x [Mul S] (a : Vec S 3) (k : S) :
  (a * k).x = a.x * k
  := Vector.getElem_map _ _

theorem scale_y [Mul S] (a : Vec S 3) (k : S) :
  (a * k).y = a.y * k
  := Vector.getElem_map _ _

theorem scale_z [Mul S] (a : Vec S 3) (k : S) :
  (a * k).z = a.z * k
  := Vector.getElem_map _ _

theorem of₃_scale [Mul S] (x y z k : S) :
  of₃ x y z * k = of₃ (x * k) (y * k) (z * k)
  := ext_three (scale_x _ _) (scale_y _ _) (scale_z _ _)

theorem dot_three_from_zero [Add S] [Mul S] [Zero S] (a b : Vec S 3) :
  a.dot b = 0 + a.x * b.x + a.y * b.y + a.z * b.z
  := by
  rw [dot, Column.dot, ← Vector.foldl_toList, Vector.toList_zip, Column.toList_three,
    Column.toList_three]
  rfl

theorem dot_three [Ring S] (a b : Vec S 3) :
  a.dot b = a.x * b.x + a.y * b.y + a.z * b.z
  := by
  rw [dot_three_from_zero, zero_add]

theorem normSquared_three [Ring S] (a : Vec S 3) :
  a.normSquared = a.x * a.x + a.y * a.y + a.z * a.z
  := by
  rw [normSquared, Column.normSquared, Column.toList_three, Column.squareSum, zero_add]
  rfl

/-! ### Unit vectors -/

/-- A vector of length one. -/
def IsUnit [Ring S] (a : Vec S 3) : Prop := a.x * a.x + a.y * a.y + a.z * a.z = 1

theorem isUnit_iff_normSquared [Ring S] {a : Vec S 3} :
  a.IsUnit ↔ a.normSquared = 1
  := by
  rw [IsUnit, normSquared_three]

theorem ne_zeros_of_isUnit [Ring S] [Nontrivial S] {a : Vec S 3} (h : a.IsUnit) :
  a ≠ Primitive.zeros
  := by
  rintro rfl
  rw [isUnit_iff_normSquared, normSquared_zeros] at h
  exact zero_ne_one h

section Ordered

variable {K : Type u} [Field K] [LinearOrder K] [IsStrictOrderedRing K]
  [SquareRoot K] [ExactRoot K]

theorem norm_of_isUnit {a : Vec K 3} (h : a.IsUnit) :
  a.norm = 1
  := by
  apply (mul_self_inj (norm_nonneg a) zero_le_one).mp
  calc
    a.norm * a.norm = a.normSquared := norm_mul_norm a
    _ = 1 * 1 := by rw [isUnit_iff_normSquared.mp h, one_mul]

/-- A vector other than zero over its length is a unit vector. -/
theorem normalize_isUnit {a : Vec K 3} (h : a ≠ Primitive.zeros) :
  a.normalize.IsUnit
  := isUnit_iff_normSquared.mpr (normSquared_normalize h)

end Ordered

end Vec

/-- Normals with the same three components are equal. -/
theorem Normal.ext_three {m n : Normal S} (hx : m.x = n.x) (hy : m.y = n.y) (hz : m.z = n.z) :
  m = n
  := by
  obtain ⟨c⟩ := m
  obtain ⟨d⟩ := n
  congr 1
  apply Column.ext_three hx hy hz

/-- Points with the same three coordinates are equal. -/
theorem Point.ext_three {p q : Point S 3} (hx : p.coords.x = q.coords.x)
    (hy : p.coords.y = q.coords.y) (hz : p.coords.z = q.coords.z) :
  p = q
  := by
  obtain ⟨c⟩ := p
  obtain ⟨d⟩ := q
  congr 1
  apply Column.ext_three hx hy hz

end RenderKernel
