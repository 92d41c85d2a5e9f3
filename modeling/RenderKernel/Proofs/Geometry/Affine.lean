import RenderKernel.Proofs.Geometry.Action

/-!
# Affine transforms

An affine transform leaves the last homogeneous coordinate of a point alone, so that the division
by it does nothing, and differences of points are mapped as vectors are (`applyPoint_sub`).  With
that, points and vectors are mapped compatibly whatever combines them
(`points_and_vectors_fit`).

Every transform that is built from translations, scalings, rotations and affine matrices is affine
and so is the inverse that it keeps (`AffineBuilt.affine`).
-/

universe u

namespace RenderKernel

/-! ### Points and the vectors between them -/

namespace Point

variable {S : Type u}

theorem sub_x [Sub S] (p q : Point S 3) :
  (p - q : Vec S 3).x = p.coords.x - q.coords.x
  := Vector.getElem_zipWith _

theorem sub_y [Sub S] (p q : Point S 3) :
  (p - q : Vec S 3).y = p.coords.y - q.coords.y
  := Vector.getElem_zipWith _

theorem sub_z [Sub S] (p q : Point S 3) :
  (p - q : Vec S 3).z = p.coords.z - q.coords.z
  := Vector.getElem_zipWith _

theorem add_x [Add S] (p : Point S 3) (a : Vec S 3) :
  (p + a : Point S 3).coords.x = p.coords.x + a.x
  := Vector.getElem_zipWith _

theorem add_y [Add S] (p : Point S 3) (a : Vec S 3) :
  (p + a : Point S 3).coords.y = p.coords.y + a.y
  := Vector.getElem_zipWith _

theorem add_z [Add S] (p : Point S 3) (a : Vec S 3) :
  (p + a : Point S 3).coords.z = p.coords.z + a.z
  := Vector.getElem_zipWith _

variable [AddCommGroup S] {n : Nat}

theorem add_sub_self (p : Point S n) (a : Vec S n) :
  ((p + a : Point S n) - p : Vec S n) = a
  := by
  apply Vec.ext_get
  intro i
  rw [get_sub, get_add_vec, add_sub_cancel_left]

/-- The vector from one point to another one leads there. -/
theorem add_sub (p q : Point S n) :
  p + (q - p : Vec S n) = q
  := by
  apply ext_get
  intro i
  rw [get_add_vec, get_sub, add_sub_cancel]

end Point

namespace Normal

variable {S : Type u} [CommRing S]

theorem dotVec_add (n : Normal S) (a b : Vec S 3) :
  n.dotVec (a + b) = n.dotVec a + n.dotVec b
  := by
  simp only [dotVec, Vec.add_x, Vec.add_y, Vec.add_z]
  ring

theorem dotVec_scale (n : Normal S) (a : Vec S 3) (k : S) :
  n.dotVec (a * k) = n.dotVec a * k
  := by
  simp only [dotVec, Vec.scale_x, Vec.scale_y, Vec.scale_z]
  ring

end Normal

namespace Transform

variable {K : Type u} [Field K] {t : Transform K}

theorem applyHomogeneous_w (h : t.matrix.Affine) (p : Point K 3) :
  (t.applyHomogeneous p).w = 1
  := by
  calc
    (t.applyHomogeneous p).w = t.matrix.row₃.dot p.toQuad := rfl
    _ = 1 := by
      rw [h]
      simp only [Quad.dot, Point.toQuad, zero_mul, mul_one, zero_add]

/-- The coordinates of the image of a point are its homogeneous coordinates. -/
theorem applyPoint_of_affine (h : t.matrix.Affine) (p : Point K 3) :
  t.applyPoint p
    = .of₃ (t.applyHomogeneous p).x (t.applyHomogeneous p).y (t.applyHomogeneous p).z
  := by
  rw [applyPoint, applyHomogeneous_w h]
  simp only [div_one]

/-- A row that is applied to two points differs by what it is on the vector between them. -/
theorem dot_toQuad_sub (q : Quad K) (p p' : Point K 3) :
  q.dot p.toQuad - q.dot p'.toQuad = q.covector.dotVec (p - p')
  := by
  calc
    q.dot p.toQuad - q.dot p'.toQuad
      = q.x * (p.coords.x - p'.coords.x) + q.y * (p.coords.y - p'.coords.y)
        + q.z * (p.coords.z - p'.coords.z)
      := by
      simp only [Quad.dot, Point.toQuad]
      ring
    _ = q.covector.dotVec (p - p')
      := by
      rw [← Point.sub_x, ← Point.sub_y, ← Point.sub_z]
      rfl

/-- The vector between two points is mapped to the vector between their images. -/
theorem applyPoint_sub (h : t.matrix.Affine) (p q : Point K 3) :
  (t.applyPoint p - t.applyPoint q : Vec K 3) = t.applyVec (p - q)
  := by
  rw [applyPoint_of_affine h, applyPoint_of_affine h]
  apply Vec.ext_three
  · rw [Point.sub_x]
    apply dot_toQuad_sub
  · rw [Point.sub_y]
    apply dot_toQuad_sub
  · rw [Point.sub_z]
    apply dot_toQuad_sub

theorem applyPoint_add (h : t.matrix.Affine) (p : Point K 3) (a : Vec K 3) :
  t.applyPoint (p + a) = t.applyPoint p + t.applyVec a
  := by
  calc
    t.applyPoint (p + a)
      = t.applyPoint p + (t.applyPoint (p + a) - t.applyPoint p : Vec K 3)
      := (Point.add_sub _ _).symm
    _ = t.applyPoint p + t.applyVec a
      := by rw [applyPoint_sub h, Point.add_sub_self]

/-! ### Linearity -/

theorem applyVec_x (t : Transform K) (a : Vec K 3) :
  (t.applyVec a).x = t.matrix.row₀.covector.dotVec a
  := rfl

theorem applyVec_y (t : Transform K) (a : Vec K 3) :
  (t.applyVec a).y = t.matrix.row₁.covector.dotVec a
  := rfl

theorem applyVec_z (t : Transform K) (a : Vec K 3) :
  (t.applyVec a).z = t.matrix.row₂.covector.dotVec a
  := rfl

theorem applyVec_add (t : Transform K) (a b : Vec K 3) :
  t.applyVec (a + b) = t.applyVec a + t.applyVec b
  := by
  apply Vec.ext_three
  · rw [Vec.add_x, applyVec_x, applyVec_x, applyVec_x, Normal.dotVec_add]
  · rw [Vec.add_y, applyVec_y, applyVec_y, applyVec_y, Normal.dotVec_add]
  · rw [Vec.add_z, applyVec_z, applyVec_z, applyVec_z, Normal.dotVec_add]

/-- A multiple of a vector is mapped to the multiple of its image. -/
theorem applyVec_scale (t : Transform K) (a : Vec K 3) (k : K) :
  t.applyVec (a * k) = t.applyVec a * k
  := by
  apply Vec.ext_three
  · rw [Vec.scale_x, applyVec_x, applyVec_x, Normal.dotVec_scale]
  · rw [Vec.scale_y, applyVec_y, applyVec_y, Normal.dotVec_scale]
  · rw [Vec.scale_z, applyVec_z, applyVec_z, Normal.dotVec_scale]

theorem applyPoint_lerp (h : t.matrix.Affine) (p q : Point K 3) (k : K) :
  t.applyPoint (p.lerp q k) = (t.applyPoint p).lerp (t.applyPoint q) k
  := by
  rw [Point.lerp, Point.lerp, applyPoint_add h, applyVec_scale, applyPoint_sub h]

/-- Vectors see the first three columns of the matrix only. -/
theorem applyVec_congr {t t' : Transform K} (h₀ : t'.matrix.col₀ = t.matrix.col₀)
    (h₁ : t'.matrix.col₁ = t.matrix.col₁) (h₂ : t'.matrix.col₂ = t.matrix.col₂) (a : Vec K 3) :
  t'.applyVec a = t.applyVec a
  := by
  have hx (t : Transform K) : (t.applyVec a).x
      = t.matrix.col₀.x * a.x + t.matrix.col₁.x * a.y + t.matrix.col₂.x * a.z := rfl
  have hy (t : Transform K) : (t.applyVec a).y
      = t.matrix.col₀.y * a.x + t.matrix.col₁.y * a.y + t.matrix.col₂.y * a.z := rfl
  have hz (t : Transform K) : (t.applyVec a).z
      = t.matrix.col₀.z * a.x + t.matrix.col₁.z * a.y + t.matrix.col₂.z * a.z := rfl
  apply Vec.ext_three
  · rw [hx, hx, h₀, h₁, h₂]
  · rw [hy, hy, h₀, h₁, h₂]
  · rw [hz, hz, h₀, h₁, h₂]

/-! ### Translations -/

/-- Vectors are not moved. -/
theorem applyVec_translate (v a : Vec K 3) :
  (translate v).applyVec a = a
  := by
  have hx : 1 * a.x + 0 * a.y + 0 * a.z = a.x := by ring
  have hy : 0 * a.x + 1 * a.y + 0 * a.z = a.y := by ring
  have hz : 0 * a.x + 0 * a.y + 1 * a.z = a.z := by ring
  exact Vec.ext_three (a := (translate v).applyVec a) hx hy hz

/-- Normals are not moved: the linear part of a translation is its own transpose. -/
theorem applyNormal_translate (v : Vec K 3) (n : Normal K) :
  (translate v).applyNormal n = n
  := congrArg Normal.ofVec (applyVec_translate v n.toVec)

theorem applyPoint_translate (v : Vec K 3) (p : Point K 3) :
  (translate v).applyPoint p = p + v
  := by
  have haffine : (translate v).matrix.Affine := rfl
  have hx : 1 * p.coords.x + 0 * p.coords.y + 0 * p.coords.z + v.x * 1 = p.coords.x + v.x := by ring
  have hy : 0 * p.coords.x + 1 * p.coords.y + 0 * p.coords.z + v.y * 1 = p.coords.y + v.y := by ring
  have hz : 0 * p.coords.x + 0 * p.coords.y + 1 * p.coords.z + v.z * 1 = p.coords.z + v.z := by ring
  rw [applyPoint_of_affine haffine]
  apply Point.ext_three
  · rw [Point.add_x]
    exact hx
  · rw [Point.add_y]
    exact hy
  · rw [Point.add_z]
    exact hz

/-! ### Transforms that are built affinely -/

section Built

variable [BEq K] [SquareRoot K] [Circular K]

/-- The transforms that are built from translations, scalings, rotations and affine matrices by
products and inverses.  Nothing is asked of the axis of a rotation, of sines or of square roots:
the shape of the matrix is all that counts. -/
inductive AffineBuilt : Transform K → Prop where
  | identity : AffineBuilt identity
  | translate (a : Vec K 3) : AffineBuilt (translate a)
  | scale {a : Vec K 3} {t : Transform K} : scale a = .ok t → AffineBuilt t
  | rotate (axis : Vec K 3) (angle : K) : AffineBuilt (rotate axis angle)
  | ofMatrix {m : Matrix4 K} {t : Transform K} : m.Affine → ofMatrix m = .ok t → AffineBuilt t
  | inverse {t : Transform K} : AffineBuilt t → AffineBuilt t.inverse
  | mul {t t' : Transform K} : AffineBuilt t → AffineBuilt t' → AffineBuilt (t * t')

/-- Both matrices stay affine, so that an inverse, which exchanges them, is affine as well. -/
theorem AffineBuilt.affine [LawfulBEq K] {t : Transform K} (h : t.AffineBuilt) :
  t.matrix.Affine ∧ t.inverseMatrix.Affine
  := by
  induction h with
  | identity => exact ⟨rfl, rfl⟩
  | translate a => exact ⟨rfl, rfl⟩
  | scale h =>
      obtain ⟨-, rfl⟩ := scale_eq_ok_iff.mp h
      exact ⟨rfl, rfl⟩
  | rotate axis angle =>
      rw [Transform.rotate]
      split
      · exact ⟨rfl, rfl⟩
      · exact ⟨rfl, rfl⟩
  | ofMatrix hm h =>
      obtain ⟨rfl, hcoherent⟩ := ofMatrix_eq_ok_iff.mp h
      use hm, hm.of_mutuallyInverse hcoherent
  | inverse _ ih => use ih.2, ih.1
  | mul _ _ ih ih' => use ih.1.mul ih'.1, ih'.2.mul ih.2

/-- Transforms that are built affinely are affine, and affine transforms map points and vectors
compatibly: differences of points, points that vectors lead to, points between points, and sums
of multiples of vectors.  Vectors do not see the last column, which a translation moves points by. -/
theorem points_and_vectors_fit [LawfulBEq K] :
  (∀ t : Transform K, t.AffineBuilt → t.matrix.Affine)
    ∧ (∀ t : Transform K, t.matrix.Affine →
      (∀ p q : Point K 3, (t.applyPoint p - t.applyPoint q : Vec K 3) = t.applyVec (p - q))
        ∧ (∀ (p : Point K 3) (a : Vec K 3), t.applyPoint (p + a) = t.applyPoint p + t.applyVec a)
        ∧ (∀ (p q : Point K 3) (k : K),
            t.applyPoint (p.lerp q k) = (t.applyPoint p).lerp (t.applyPoint q) k)
        ∧ (∀ (a b : Vec K 3) (k : K), t.applyVec (a * k + b) = t.applyVec a * k + t.applyVec b)
        ∧ (∀ t' : Transform K, t'.matrix.col₀ = t.matrix.col₀ → t'.matrix.col₁ = t.matrix.col₁ →
            t'.matrix.col₂ = t.matrix.col₂ → ∀ a : Vec K 3, t'.applyVec a = t.applyVec a))
    ∧ ∀ (v : Vec K 3) (p : Point K 3), (translate v).applyPoint p = p + v
  := by
  constructor
  · intro t ht
    apply ht.affine.1
  · constructor
    · intro t ht
      have hlinear (a b : Vec K 3) (k : K) :
          t.applyVec (a * k + b) = t.applyVec a * k + t.applyVec b := by
        rw [applyVec_add, applyVec_scale]
      use applyPoint_sub ht, applyPoint_add ht, applyPoint_lerp ht, hlinear
      intro t' h₀ h₁ h₂ a
      apply applyVec_congr h₀ h₁ h₂
    · apply applyPoint_translate

end Built

theorem oblique_points_and_vectors_fit :
  oblique.AffineBuilt ∧ oblique.matrix.Affine
    ∧ oblique.applyPoint ((.of₃ 1 2 3 : Point ℝ 3).lerp (.of₃ 4 5 6) 2)
      = (oblique.applyPoint (.of₃ 1 2 3)).lerp (oblique.applyPoint (.of₃ 4 5 6)) 2
    ∧ (translate (.of₃ 4 5 6) : Transform ℝ).matrix.col₀
      = (translate (.of₃ 1 2 3) : Transform ℝ).matrix.col₀
    ∧ (translate (.of₃ 4 5 6) : Transform ℝ).matrix.col₁
      = (translate (.of₃ 1 2 3) : Transform ℝ).matrix.col₁
    ∧ (translate (.of₃ 4 5 6) : Transform ℝ).matrix.col₂
      = (translate (.of₃ 1 2 3) : Transform ℝ).matrix.col₂
    ∧ (translate (.of₃ 4 5 6) : Transform ℝ).applyVec (.of₃ 7 8 9)
      = (translate (.of₃ 1 2 3) : Transform ℝ).applyVec (.of₃ 7 8 9)
  := by
  have hbuilt : oblique.AffineBuilt :=
    .inverse (.mul (.rotate (.of₃ 1 2 2) 1) (.translate (.of₃ 1 2 3)))
  have haffine := points_and_vectors_fit.1 oblique hbuilt
  have hmoved : (translate (.of₃ 1 2 3) : Transform ℝ).matrix.Affine := rfl
  use hbuilt, haffine, (points_and_vectors_fit.2.1 oblique haffine).2.2.1 _ _ _, rfl, rfl, rfl
  apply (points_and_vectors_fit.2.1 _ hmoved).2.2.2.2 _ rfl rfl rfl

end Transform

end RenderKernel
