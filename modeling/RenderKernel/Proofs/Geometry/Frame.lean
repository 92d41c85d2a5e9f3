import Mathlib.LinearAlgebra.Matrix.NonsingularInverse
import RenderKernel.Proofs.Geometry.Basis

/-!
# Local and world coordinates

The tangents and the normal of a frame are the rows of a matrix (`Frame.toMatrix`), by which vectors
are multiplied to find their local coordinates; the transposed matrix leads back.  If the rows are
orthonormal, the transposed matrix is an inverse on one side, and therefore on the other side too
(`Frame.Orthonormal.transpose_mul`), so that local coordinates determine a vector and keep its dot
products with others (`Frame.orthonormal_coordinates`).
-/

universe u

namespace RenderKernel

open Matrix

/-! ### Columns of components -/

namespace Vec

variable {S : Type u}

/-- The components as a column. -/
def column (a : Vec S 3) : Fin 3 → S := ![a.x, a.y, a.z]

theorem column_injective {a b : Vec S 3} (h : a.column = b.column) :
  a = b
  := ext_three (congrFun h 0) (congrFun h 1) (congrFun h 2)

/-- The dot product is that of the columns. -/
theorem dot_eq_dotProduct [CommRing S] (a b : Vec S 3) :
  a.dot b = a.column ⬝ᵥ b.column
  := by
  rw [dot_three, dotProduct, Fin.sum_univ_three]
  rfl

end Vec

namespace Frame

section Coordinates

variable {S : Type u} [CommRing S] {f : Frame S}

/-- The tangents and the normal as the rows of a matrix. -/
def toMatrix (f : Frame S) : Matrix (Fin 3) (Fin 3) S :=
  .of ![f.s.column, f.t.column, f.n.toVec.column]

theorem column_toLocal (f : Frame S) (a : Vec S 3) :
  (f.toLocal a).column = f.toMatrix *ᵥ a.column
  := by
  funext i
  fin_cases i
  · exact (Vec.dot_comm a f.s).trans (f.s.dot_eq_dotProduct a)
  · exact (Vec.dot_comm a f.t).trans (f.t.dot_eq_dotProduct a)
  · exact (f.n.dotVec_eq_dot a).trans (f.n.toVec.dot_eq_dotProduct a)

theorem column_toWorld (f : Frame S) (a : Vec S 3) :
  (f.toWorld a).column = f.toMatrixᵀ *ᵥ a.column
  := by
  have hsum : ∀ i, (f.toMatrixᵀ *ᵥ a.column) i
      = f.s.column i * a.x + f.t.column i * a.y + f.n.toVec.column i * a.z := by
    intro i
    rw [mulVec, dotProduct, Fin.sum_univ_three]
    rfl
  funext i
  rw [hsum]
  fin_cases i
  · change (f.toWorld a).x = f.s.x * a.x + f.t.x * a.y + f.n.toVec.x * a.z
    rw [toWorld, Vec.add_x, Vec.add_x, Vec.scale_x, Vec.scale_x, Vec.scale_x]
  · change (f.toWorld a).y = f.s.y * a.x + f.t.y * a.y + f.n.toVec.y * a.z
    rw [toWorld, Vec.add_y, Vec.add_y, Vec.scale_y, Vec.scale_y, Vec.scale_y]
  · change (f.toWorld a).z = f.s.z * a.x + f.t.z * a.y + f.n.toVec.z * a.z
    rw [toWorld, Vec.add_z, Vec.add_z, Vec.scale_z, Vec.scale_z, Vec.scale_z]

/-- The tangents and the normal are orthonormal, of either handedness. -/
def Orthonormal (f : Frame S) : Prop := Vec.Orthonormal f.s f.t f.n.toVec

namespace Orthonormal

/-- The rows of an orthonormal frame are orthonormal as those of a matrix. -/
theorem mul_transpose (h : f.Orthonormal) :
  f.toMatrix * f.toMatrixᵀ = 1
  := by
  obtain ⟨hs, ht, hn, hst, hsn, htn⟩ := h
  have hrows : ∀ i j, (f.toMatrix * f.toMatrixᵀ) i j = f.toMatrix i ⬝ᵥ f.toMatrix j := fun i j => rfl
  have hunit : ∀ a : Vec S 3, a.IsUnit → a.column ⬝ᵥ a.column = 1 := by
    intro a ha
    rw [← Vec.dot_eq_dotProduct, ← Vec.normSquared_eq_dot, Vec.isUnit_iff_normSquared.mp ha]
  have hright : ∀ a b : Vec S 3, a.dot b = 0 → a.column ⬝ᵥ b.column = 0 ∧ b.column ⬝ᵥ a.column = 0 := by
    intro a b hab
    rw [← Vec.dot_eq_dotProduct, ← Vec.dot_eq_dotProduct, Vec.dot_comm b a]
    exact ⟨hab, hab⟩
  ext i j
  rw [hrows]
  fin_cases i
  · fin_cases j
    · exact hunit f.s hs
    · exact (hright _ _ hst).1
    · exact (hright _ _ hsn).1
  · fin_cases j
    · exact (hright _ _ hst).2
    · exact hunit f.t ht
    · exact (hright _ _ htn).1
  · fin_cases j
    · exact (hright _ _ hsn).2
    · exact (hright _ _ htn).2
    · exact hunit f.n.toVec hn

/-- The rows are complete: a one-sided inverse of a matrix is an inverse on the other side too. -/
theorem transpose_mul (h : f.Orthonormal) :
  f.toMatrixᵀ * f.toMatrix = 1
  := mul_eq_one_comm.mp h.mul_transpose

/-- The coordinates of a vector in an orthonormal frame give the vector back, because the transposed
matrix is an inverse on the other side too. -/
theorem toWorld_toLocal (h : f.Orthonormal) (a : Vec S 3) :
  f.toWorld (f.toLocal a) = a
  := by
  apply Vec.column_injective
  rw [column_toWorld, column_toLocal, mulVec_mulVec, h.transpose_mul, one_mulVec]

theorem toLocal_toWorld (h : f.Orthonormal) (a : Vec S 3) :
  f.toLocal (f.toWorld a) = a
  := by
  apply Vec.column_injective
  rw [column_toLocal, column_toWorld, mulVec_mulVec, h.mul_transpose, one_mulVec]

/-- Coordinates in an orthonormal frame keep the dot product. -/
theorem dot_toLocal (h : f.Orthonormal) (a b : Vec S 3) :
  (f.toLocal a).dot (f.toLocal b) = a.dot b
  := by
  rw [Vec.dot_eq_dotProduct, Vec.dot_eq_dotProduct, column_toLocal, column_toLocal, dotProduct_mulVec,
    vecMul_mulVec, h.transpose_mul, vecMul_one]

theorem isUnit_toLocal (h : f.Orthonormal) {a : Vec S 3} (ha : a.IsUnit) :
  (f.toLocal a).IsUnit
  := by
  rw [Vec.isUnit_iff_normSquared, Vec.normSquared_eq_dot] at ha ⊢
  rw [h.dot_toLocal, ha]

/-- The normal lies along the third axis. -/
theorem toLocal_normal (h : f.Orthonormal) :
  f.toLocal f.n.toVec = .of₃ 0 0 1
  := by
  have hunit : f.n.dotVec f.n.toVec = 1 := by
    rw [Normal.dotVec_eq_dot, ← Vec.normSquared_eq_dot, Vec.isUnit_iff_normSquared.mp h.isUnit₃]
  rw [toLocal, Vec.dot_comm _ f.s, Vec.dot_comm _ f.t, h.dot₁₃, h.dot₂₃, hunit]

end Orthonormal

end Coordinates

section Ordered

variable {K : Type u} [Field K] [LinearOrder K] [IsStrictOrderedRing K]

/-! ### Angles -/

/-- The squared sine lies between zero and one for every vector, since it is clamped. -/
theorem sinTheta2_bounds (a : Vec K 3) :
  0 ≤ sinTheta2 a ∧ sinTheta2 a ≤ 1
  := by
  constructor
  · exact le_max_right _ _
  · apply max_le
    · exact sub_le_self 1 (mul_self_nonneg a.z)
    · exact zero_le_one

/-- For a unit vector nothing negative is cut off. -/
theorem sinTheta2_of_isUnit {a : Vec K 3} (h : a.IsUnit) :
  0 ≤ 1 - cosTheta a * cosTheta a ∧ sinTheta2 a = 1 - cosTheta a * cosTheta a
  := by
  have hunit : a.x * a.x + a.y * a.y + a.z * a.z = 1 := h
  have hx := mul_self_nonneg a.x
  have hy := mul_self_nonneg a.y
  have hnonneg : 0 ≤ 1 - a.z * a.z := by linarith
  exact ⟨hnonneg, max_eq_left hnonneg⟩

/-! ### The frame around a normal -/

variable [SquareRoot K] [ExactRoot K] [Modulus K] [ExactModulus K]

/-- The frame around a unit normal is orthonormal. -/
theorem orthonormal_ofNormal {n : Normal K} (h : n.toVec.IsUnit) :
  (ofNormal n).Orthonormal
  := (Vec.orthonormal_completeBasis h).1.rotate

/-- In an orthonormal frame vectors and their local coordinates determine each other, and have the same
dot products.  The third coordinate is the pairing with the normal, and for unit vectors the cosine
whose sine is computed from it.  The frame around a unit normal is orthonormal and right-handed. -/
theorem orthonormal_coordinates :
  (∀ f : Frame K, f.Orthonormal →
      (∀ v, f.toWorld (f.toLocal v) = v)
        ∧ (∀ v, f.toLocal (f.toWorld v) = v)
        ∧ (∀ v w, (f.toLocal v).dot (f.toLocal w) = v.dot w)
        ∧ (∀ v, cosTheta (f.toLocal v) = f.n.dotVec v)
        ∧ ∀ v : Vec K 3, v.IsUnit →
          sinTheta2 (f.toLocal v) + cosTheta (f.toLocal v) * cosTheta (f.toLocal v) = 1
            ∧ 0 ≤ 1 - cosTheta (f.toLocal v) * cosTheta (f.toLocal v)
            ∧ sinTheta2 (f.toLocal v) = 1 - cosTheta (f.toLocal v) * cosTheta (f.toLocal v))
    ∧ (∀ v : Vec K 3, 0 ≤ sinTheta2 v ∧ sinTheta2 v ≤ 1)
    ∧ ∀ n : Normal K, n.toVec.IsUnit →
      (ofNormal n).Orthonormal
        ∧ (ofNormal n).n = n
        ∧ (ofNormal n).s.cross (ofNormal n).t = n.toVec
        ∧ (ofNormal n).toLocal n.toVec = .of₃ 0 0 1
  := by
  refine ⟨?_, sinTheta2_bounds, ?_⟩
  · intro f hf
    refine ⟨hf.toWorld_toLocal, hf.toLocal_toWorld, hf.dot_toLocal, fun v => rfl, ?_⟩
    intro v hv
    obtain ⟨hnonneg, hsine⟩ := sinTheta2_of_isUnit (hf.isUnit_toLocal hv)
    refine ⟨?_, hnonneg, hsine⟩
    rw [hsine, sub_add_cancel]
  · intro n hn
    have horthonormal := orthonormal_ofNormal hn
    obtain ⟨-, -, hcross, -⟩ := Vec.orthonormal_completeBasis hn
    exact ⟨horthonormal, rfl, hcross, horthonormal.toLocal_normal⟩

end Ordered

/-- A left-handed frame, and the frame around an oblique normal. -/
theorem orthonormal_coordinates_real :
  let f : Frame ℝ := ⟨.of₃ 0 1 0, .of₃ 1 0 0, .of₃ 0 0 1⟩
  let v : Vec ℝ 3 := .of₃ 3 4 5
  let u : Vec ℝ 3 := .of₃ (3 / 5) 0 (4 / 5)
  let n : Normal ℝ := .of₃ (2 / 3) (2 / 3) (1 / 3)
  f.Orthonormal ∧ f.toWorld (f.toLocal v) = v ∧ f.toLocal (f.toWorld v) = v
    ∧ u.IsUnit ∧ sinTheta2 (f.toLocal u) + cosTheta (f.toLocal u) * cosTheta (f.toLocal u) = 1
    ∧ n.toVec.IsUnit ∧ (ofNormal n).Orthonormal ∧ (ofNormal n).toLocal n.toVec = .of₃ 0 0 1
  := by
  intro f v u n
  have hunit : ∀ x y z : ℝ, x * x + y * y + z * z = 1 → (.of₃ x y z : Vec ℝ 3).IsUnit :=
    fun x y z h => h
  have hdot : ∀ x y z x' y' z' : ℝ, x * x' + y * y' + z * z' = 0 →
      (.of₃ x y z : Vec ℝ 3).dot (.of₃ x' y' z') = 0 :=
    fun x y z x' y' z' h => (Vec.dot_three _ _).trans h
  have hf : f.Orthonormal := by
    refine ⟨hunit _ _ _ ?_, hunit _ _ _ ?_, hunit _ _ _ ?_, hdot _ _ _ _ _ _ ?_, hdot _ _ _ _ _ _ ?_,
      hdot _ _ _ _ _ _ ?_⟩
    all_goals norm_num
  have hu : u.IsUnit := hunit _ _ _ (by norm_num)
  have hn : n.toVec.IsUnit := hunit _ _ _ (by norm_num)
  obtain ⟨hframe, -, hnormal⟩ := orthonormal_coordinates (K := ℝ)
  obtain ⟨hworld, hlocal, -, -, hsine⟩ := hframe f hf
  obtain ⟨horthonormal, -, -, hthird⟩ := hnormal n hn
  exact ⟨hf, hworld v, hlocal v, hu, (hsine u hu).1, hn, horthonormal, hthird⟩

end Frame

end RenderKernel
