import RenderKernel.Proofs.Geometry.Homogeneous
import RenderKernel.Proofs.Geometry.Inverse

/-!
# The pairing of normals with vectors

Normals are mapped by the transposed linear part of the inverse matrix, which is the inverse of
the linear part only up to a product of the last column of one matrix with the last row of the
other (`dotVec_apply`).  So the pairing of normals with vectors is kept exactly if one of the
two vanishes (`ofMatrix_keepsPairing_iff`): affine transforms keep it, and a projective one that
also translates does not.
-/

universe u

namespace RenderKernel

variable {K : Type u} [Field K]

namespace Transform

/-! ### The pairing of images -/

/-- Every normal and every vector are paired as their images are. -/
def KeepsPairing (t : Transform K) : Prop :=
  ∀ (n : Normal K) (a : Vec K 3), (t.applyNormal n).dotVec (t.applyVec a) = n.dotVec a

/-- The images are paired as before, less the pairing of the normal with the last column of the
inverse times the pairing of the last row with the vector. -/
theorem dotVec_apply {t : Transform K} (h : t.Coherent) (n : Normal K) (a : Vec K 3) :
  (t.applyNormal n).dotVec (t.applyVec a)
    = n.dotVec a - n.dotVec t.inverseMatrix.col₃.vector * t.matrix.row₃.covector.dotVec a
  := by
  have hquad : (Matrix4.rowMul n.toQuad t.inverseMatrix).dot (t.matrix.mulQuad a.toQuad)
      = n.dotVec a := by
    rw [Matrix4.rowMul_dot, h.mulQuad_mulQuad, Quad.dot_toQuad, Normal.covector_toQuad]
  rw [Quad.dot_eq, ← applyNormal_eq, ← applyVec_eq, Matrix4.rowMul_toQuad, Matrix4.mulQuad_toQuad]
    at hquad
  apply eq_sub_of_add_eq hquad

/-- The pairing is kept exactly if the last column of the inverse or the last row of the matrix
vanishes but for the last entry. -/
theorem keepsPairing_iff {t : Transform K} (h : t.Coherent) :
  t.KeepsPairing ↔ t.inverseMatrix.col₃.Flat ∨ t.matrix.row₃.Flat
  := by
  have hzero (n : Normal K) (a : Vec K 3) :
      (t.applyNormal n).dotVec (t.applyVec a) = n.dotVec a
        ↔ n.dotVec t.inverseMatrix.col₃.vector = 0 ∨ t.matrix.row₃.covector.dotVec a = 0 := by
    rw [dotVec_apply h, sub_eq_self, mul_eq_zero]
  simp only [KeepsPairing, hzero, forall_or_left, forall_or_right,
    Quad.forall_dotVec_vector_eq_zero_iff, Quad.forall_covector_dotVec_eq_zero_iff]

/-- The transform of a matrix keeps the pairing of normals with vectors exactly if the last row
or the last column of the matrix vanishes but for the last entry. -/
theorem ofMatrix_keepsPairing_iff [BEq K] [LawfulBEq K] {m : Matrix4 K} {t : Transform K}
    (h : ofMatrix m = .ok t) :
  (t.KeepsPairing ↔ m.row₃.Flat ∨ m.col₃.Flat) ∧ (m.Affine → t.KeepsPairing)
    ∧ (¬ m.row₃.Flat → ¬ m.col₃.Flat → ¬ t.KeepsPairing)
  := by
  obtain ⟨rfl, ht⟩ := ofMatrix_eq_ok_iff.mp h
  have hcol : t.inverseMatrix.col₃.Flat ↔ t.matrix.col₃.Flat := by
    constructor
    · apply ht.flat_col₃
    · apply ht.symm.flat_col₃
  have hiff : t.KeepsPairing ↔ t.matrix.row₃.Flat ∨ t.matrix.col₃.Flat := by
    rw [keepsPairing_iff ht, hcol, or_comm]
  use hiff
  constructor
  · intro haffine
    apply hiff.mpr (.inl haffine.flat)
  · intro hrow hcol hkeeps
    cases hiff.mp hkeeps with
    | inl hflat => apply hrow hflat
    | inr hflat => apply hcol hflat

theorem perspective_not_keepsPairing :
  ofMatrix perspective.matrix = .ok perspective ∧ ¬ perspective.KeepsPairing
  := by
  have h := ofMatrix_eq_ok_iff.mpr ⟨rfl, coherent_perspective⟩
  use h
  apply (ofMatrix_keepsPairing_iff h).2.2
  · intro hflat
    apply one_ne_zero hflat.1
  · intro hflat
    apply one_ne_zero hflat.1

end Transform

end RenderKernel
