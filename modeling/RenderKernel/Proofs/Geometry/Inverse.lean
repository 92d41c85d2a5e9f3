import RenderKernel.Geometry.Transform
import RenderKernel.Proofs.Geometry.Rotation
import RenderKernel.Proofs.Number.Real

/-!
# The kept inverse

A transform is coherent if the matrices that it keeps are mutually inverse.  Every constructor
makes a coherent transform, products and inverses of coherent transforms are coherent, and the
matrix of a coherent transform leads back to it (`ofMatrix_eq_ok_iff`).  So every transform that
is built from the constructors keeps the inverse of its matrix, and no other matrix.
-/

universe u

namespace RenderKernel.Transform

/-- The transform keeps the inverse of its matrix. -/
def Coherent {S : Type u} [Add S] [Mul S] [Zero S] [One S] (t : Transform S) : Prop :=
  Matrix4.MutuallyInverse t.matrix t.inverseMatrix

/-! ### Coherence of the operations -/

section Ring

variable {S : Type u} [CommRing S] {t t' : Transform S}

theorem coherent_identity :
  (identity : Transform S).Coherent
  := Matrix4.MutuallyInverse.identity

theorem Coherent.inverse (h : t.Coherent) :
  t.inverse.Coherent
  := h.symm

/-- Products keep the product of the inverses, in the opposite order. -/
theorem Coherent.mul (h : t.Coherent) (h' : t'.Coherent) :
  (t * t').Coherent
  := Matrix4.MutuallyInverse.mul h h'

/-- The inverse of a translation is that by the opposite vector. -/
theorem coherent_translate (a : Vec S 3) :
  (translate a).Coherent
  := Matrix4.mutuallyInverse_translation a

end Ring

section Field

variable {K : Type u} [Field K] [BEq K] [LawfulBEq K]

/-- Scaling succeeds exactly if no factor is zero. -/
theorem scale_eq_ok_iff {a : Vec K 3} {t : Transform K} :
  scale a = .ok t ↔ (a.x ≠ 0 ∧ a.y ≠ 0 ∧ a.z ≠ 0)
    ∧ t = ⟨.scaling a, .scaling (.of₃ (1 / a.x) (1 / a.y) (1 / a.z))⟩
  := by
  have hany : a.components.any (· == 0) = true ↔ ¬ (a.x ≠ 0 ∧ a.y ≠ 0 ∧ a.z ≠ 0) := by
    rw [Column.any_three, beq_iff_eq, beq_iff_eq, beq_iff_eq, not_and_or, not_and_or, not_not,
      not_not, not_not]
    rfl
  rw [scale]
  split
  · rename_i hzero
    constructor
    · intro h
      cases h
    · rintro ⟨hne, -⟩
      apply absurd hne (hany.mp hzero)
  · rename_i hnone
    constructor
    · intro h
      obtain rfl := Except.ok.inj h
      use not_not.mp (mt hany.mpr hnone)
    · rintro ⟨-, rfl⟩
      rfl

/-- The inverse of a scaling, if there is one, has the reciprocal factors. -/
theorem coherent_scale {a : Vec K 3} {t : Transform K} (h : scale a = .ok t) :
  t.Coherent
  := by
  obtain ⟨⟨hx, hy, hz⟩, rfl⟩ := scale_eq_ok_iff.mp h
  apply Matrix4.mutuallyInverse_scaling hx hy hz

/-- A matrix leads to the coherent transform with this matrix, and to no other one. -/
theorem ofMatrix_eq_ok_iff {m : Matrix4 K} {t : Transform K} :
  ofMatrix m = .ok t ↔ t.matrix = m ∧ t.Coherent
  := by
  constructor
  · intro h
    rw [ofMatrix] at h
    split at h
    · rename_i n hn
      obtain rfl := Except.ok.inj h
      constructor
      · rfl
      · apply Matrix4.inverse?_eq_some_iff.mp hn
    · cases h
  · rintro ⟨rfl, ht⟩
    rw [ofMatrix, Matrix4.inverse?_eq_some_iff.mpr ht]

end Field

section Rotation

variable {K : Type u} [Field K] [LinearOrder K] [IsStrictOrderedRing K] [BEq K]
  [SquareRoot K] [ExactRoot K] [Circular K] [UnitCircle K]

/-- The inverse of a rotation is its transpose, since the direction of the axis has unit length. -/
theorem coherent_rotate {axis : Vec K 3} (h : axis ≠ Primitive.zeros) (angle : K) :
  (rotate axis angle).Coherent
  := by
  rw [rotate]
  split
  · apply Matrix4.MutuallyInverse.identity
  · apply Matrix4.mutuallyInverse_rotation
    · apply Vec.normalize_isUnit h
    · apply UnitCircle.sin_mul_sin_add_cos_mul_cos

end Rotation

/-- A transform that translates along the first axis and has a vanishing point on it. -/
def perspective : Transform ℚ :=
  ⟨⟨⟨1, 0, 0, 1⟩, ⟨0, 1, 0, 0⟩, ⟨0, 0, 1, 0⟩, ⟨1, 0, 0, 2⟩⟩,
    ⟨⟨2, 0, 0, -1⟩, ⟨0, 1, 0, 0⟩, ⟨0, 0, 1, 0⟩, ⟨-1, 0, 0, 1⟩⟩⟩

theorem coherent_perspective :
  perspective.Coherent
  := by
  constructor
  · decide +kernel
  · decide +kernel

/-! ### Transforms that are built -/

section Built

variable {K : Type u} [Field K] [BEq K] [SquareRoot K] [Circular K]

/-- The transforms that are built from the constructors by products and inverses.  A matrix
that is given together with its inverse is not checked, so the two must fit. -/
inductive Built : Transform K → Prop where
  | identity : Built identity
  | translate (a : Vec K 3) : Built (translate a)
  | scale {a : Vec K 3} {t : Transform K} : scale a = .ok t → Built t
  | rotate {axis : Vec K 3} (angle : K) : axis ≠ Primitive.zeros → Built (rotate axis angle)
  | ofMatrix {m : Matrix4 K} {t : Transform K} : ofMatrix m = .ok t → Built t
  | ofMatrixInverse {m n : Matrix4 K} : Matrix4.MutuallyInverse m n → Built (ofMatrixInverse m n)
  | inverse {t : Transform K} : Built t → Built t.inverse
  | mul {t t' : Transform K} : Built t → Built t' → Built (t * t')

variable [LawfulBEq K] [LinearOrder K] [IsStrictOrderedRing K] [ExactRoot K] [UnitCircle K]

/-- Every transform that is built keeps its inverse, by induction on how it is built. -/
theorem Built.coherent {t : Transform K} (h : t.Built) :
  t.Coherent
  := by
  induction h with
  | identity => apply coherent_identity
  | translate a => apply coherent_translate
  | scale h => apply coherent_scale h
  | rotate angle h => apply coherent_rotate h
  | ofMatrix h => apply (ofMatrix_eq_ok_iff.mp h).2
  | ofMatrixInverse h => apply h
  | inverse _ ih => apply ih.inverse
  | mul _ _ ih ih' => apply ih.mul ih'

/-- However a transform is built, it keeps the inverse of its matrix, and its matrix alone leads
back to it. -/
theorem built_keeps_inverse {t : Transform K} (h : t.Built) :
  t.matrix * t.inverseMatrix = .identity ∧ t.inverseMatrix * t.matrix = .identity
    ∧ ofMatrix t.matrix = .ok t
  := by
  have ht := h.coherent
  use ht.mul_right, ht.mul_left
  apply ofMatrix_eq_ok_iff.mpr ⟨rfl, ht⟩

end Built

/-- A rotation around an oblique axis after a translation, undone. -/
noncomputable def oblique : Transform ℝ :=
  (rotate (.of₃ 1 2 2 : Vec ℝ 3) 1 * translate (.of₃ 1 2 3)).inverse

/-- A rotation around an oblique axis and a translation keep their inverse, and can be found again from
the matrix. -/
theorem oblique_keeps_inverse :
  oblique.Built ∧ oblique.matrix * oblique.inverseMatrix = .identity
    ∧ oblique.inverseMatrix * oblique.matrix = .identity ∧ ofMatrix oblique.matrix = .ok oblique
  := by
  have haxis : (.of₃ 1 2 2 : Vec ℝ 3) ≠ Primitive.zeros := by
    intro h
    have hx := congrArg Vec.x h
    rw [Vec.zeros_x] at hx
    apply one_ne_zero hx
  have h : oblique.Built := .inverse (.mul (.rotate 1 haxis) (.translate (.of₃ 1 2 3)))
  use h
  apply built_keeps_inverse h

end RenderKernel.Transform
