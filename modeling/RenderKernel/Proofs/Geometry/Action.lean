import RenderKernel.Proofs.Geometry.Homogeneous
import RenderKernel.Proofs.Geometry.Inverse

/-!
# The action of transforms

Transforms act on vectors, points and normals: a product applies one factor after the other, and
an inverse undoes what its transform did (`apply_mul_and_inverse`).  Points are mapped by all
transforms in this way, as long as their last homogeneous coordinate does not vanish, because
the division by it does not see a common factor of the coordinates.  Vectors and normals forget
their last coordinate, which is harmless for affine transforms only.
-/

universe u

namespace RenderKernel

variable {K : Type u} [Field K]

/-! ### The division by the last coordinate -/

/-- A common factor of the coordinates is not seen by the division. -/
theorem Quad.project_scale (q : Quad K) {k : K} (hk : k ≠ 0) :
  (q.scale k).project = q.project
  := by
  apply Point.ext_three
  · apply mul_div_mul_right _ _ hk
  · apply mul_div_mul_right _ _ hk
  · apply mul_div_mul_right _ _ hk

/-- A column is, up to its last coordinate, the point that it stands for. -/
theorem Quad.toQuad_project {q : Quad K} (hw : q.w ≠ 0) :
  q.project.toQuad = q.scale (1 / q.w)
  := by
  ext
  · apply div_eq_mul_one_div
  · apply div_eq_mul_one_div
  · apply div_eq_mul_one_div
  · symm
    apply mul_one_div_cancel hw

theorem Point.project_toQuad (p : Point K 3) :
  p.toQuad.project = p
  := by
  apply ext_three
  · apply div_one
  · apply div_one
  · apply div_one

namespace Transform

variable {t t' : Transform K}

/-! ### Points -/

/-- A point that stands for a column is mapped to the point that stands for its image. -/
theorem applyPoint_project (t : Transform K) {q : Quad K} (hw : q.w ≠ 0) :
  t.applyPoint q.project = (t.matrix.mulQuad q).project
  := by
  calc
    t.applyPoint q.project = (t.matrix.mulQuad q.project.toQuad).project := rfl
    _ = ((t.matrix.mulQuad q).scale (1 / q.w)).project := by
      rw [Quad.toQuad_project hw, Matrix4.mulQuad_scale]
    _ = (t.matrix.mulQuad q).project := Quad.project_scale _ (one_div_ne_zero hw)

/-- A product acts on a point as its factors do one after the other, if the one that acts first does
not send the point to infinity. -/
theorem applyPoint_mul (p : Point K 3) (hw : (t'.applyHomogeneous p).w ≠ 0) :
  (t * t').applyPoint p = t.applyPoint (t'.applyPoint p)
  := by
  calc
    (t * t').applyPoint p = ((t.matrix * t'.matrix).mulQuad p.toQuad).project := rfl
    _ = (t.matrix.mulQuad (t'.matrix.mulQuad p.toQuad)).project := by rw [Matrix4.mulQuad_mul]
    _ = t.applyPoint (t'.applyPoint p) := (applyPoint_project t hw).symm

/-- The inverse takes a point back, if the point was not sent to infinity. -/
theorem applyPoint_inverse (h : t.Coherent) (p : Point K 3)
    (hw : (t.applyHomogeneous p).w ≠ 0) :
  t.inverse.applyPoint (t.applyPoint p) = p
  := by
  calc
    t.inverse.applyPoint (t.applyPoint p)
      = (t.inverseMatrix.mulQuad (t.matrix.mulQuad p.toQuad)).project
      := applyPoint_project t.inverse hw
    _ = p := by rw [h.mulQuad_mulQuad, Point.project_toQuad]

/-! ### Vectors -/

/-- Affine matrices map columns that stand for vectors to such columns. -/
theorem toQuad_applyVec (h : t.matrix.Affine) (a : Vec K 3) :
  (t.applyVec a).toQuad = t.matrix.mulQuad a.toQuad
  := by
  have hw := (Quad.forall_covector_dotVec_eq_zero_iff t.matrix.row₃).mpr h.flat a
  rw [applyVec_eq, Matrix4.mulQuad_toQuad, hw]
  rfl

/-- A product acts on a vector as its factors do one after the other, if the one that acts first is
affine. -/
theorem applyVec_mul (h : t'.matrix.Affine) (a : Vec K 3) :
  (t * t').applyVec a = t.applyVec (t'.applyVec a)
  := by
  rw [applyVec_eq, applyVec_eq t, toQuad_applyVec h, ← Matrix4.mulQuad_mul]
  rfl

/-- The inverse of an affine transform takes a vector back. -/
theorem applyVec_inverse (h : t.Coherent) (hm : t.matrix.Affine) (a : Vec K 3) :
  t.inverse.applyVec (t.applyVec a) = a
  := by
  rw [applyVec_eq, toQuad_applyVec hm]
  calc
    (t.inverseMatrix.mulQuad (t.matrix.mulQuad a.toQuad)).vector = a.toQuad.vector := by
      rw [h.mulQuad_mulQuad]
    _ = a := Vec.vector_toQuad a

/-! ### Normals -/

/-- If the inverse is affine, a normal is mapped alike whatever last coordinate it is given. -/
theorem applyNormal_covector (h : t.inverseMatrix.Affine) (q : Quad K) :
  t.applyNormal q.covector = (Matrix4.rowMul q t.inverseMatrix).covector
  := by
  obtain ⟨hx, hy, hz⟩ := h.flat
  have h₀ : t.inverseMatrix.col₀.w = 0 := hx
  have h₁ : t.inverseMatrix.col₁.w = 0 := hy
  have h₂ : t.inverseMatrix.col₂.w = 0 := hz
  have hdot {r : Quad K} (hr : r.w = 0) : q.dot r = q.covector.dotVec r.vector := by
    rw [Quad.dot_eq, hr, mul_zero, add_zero]
  rw [applyNormal_eq, Matrix4.rowMul_toQuad, Matrix4.rowMul, hdot h₀, hdot h₁, hdot h₂]
  rfl

/-- A product acts on a normal as its factors do one after the other, if the inverse of the one that
acts last is affine. -/
theorem applyNormal_mul (h : t.inverseMatrix.Affine) (n : Normal K) :
  (t * t').applyNormal n = t.applyNormal (t'.applyNormal n)
  := by
  rw [applyNormal_eq, applyNormal_eq t', applyNormal_covector h, ← Matrix4.rowMul_mul]
  rfl

/-- The inverse of an affine transform takes a normal back. -/
theorem applyNormal_inverse (h : t.Coherent) (hm : t.matrix.Affine) (n : Normal K) :
  t.inverse.applyNormal (t.applyNormal n) = n
  := by
  rw [applyNormal_eq t, applyNormal_covector hm]
  calc
    (Matrix4.rowMul (Matrix4.rowMul n.toQuad t.inverseMatrix) t.matrix).covector
      = n.toQuad.covector
      := by rw [h.symm.rowMul_rowMul]
    _ = n := Normal.covector_toQuad n

/-! ### The action -/

/-- A product of coherent transforms applies the second one first, and the inverse undoes what a
transform did: to every point whose images are not at infinity, and, for affine transforms, to
every vector and every normal. -/
theorem apply_mul_and_inverse (ht : t.Coherent) (ht' : t'.Coherent) :
  (∀ p : Point K 3, (t'.applyHomogeneous p).w ≠ 0 →
      (((t * t').applyHomogeneous p).w ≠ 0 →
          (t * t').applyPoint p = t.applyPoint (t'.applyPoint p))
        ∧ t'.inverse.applyPoint (t'.applyPoint p) = p)
    ∧ (t.matrix.Affine → t'.matrix.Affine →
        (∀ a : Vec K 3, (t * t').applyVec a = t.applyVec (t'.applyVec a))
          ∧ (∀ n : Normal K, (t * t').applyNormal n = t.applyNormal (t'.applyNormal n))
          ∧ (∀ a : Vec K 3, t'.inverse.applyVec (t'.applyVec a) = a)
          ∧ (∀ n : Normal K, t'.inverse.applyNormal (t'.applyNormal n) = n)
          ∧ (t * t').matrix.Affine ∧ t'.inverse.matrix.Affine)
  := by
  constructor
  · intro p hw
    constructor
    · intro _
      apply applyPoint_mul p hw
    · apply applyPoint_inverse ht' p hw
  · intro hm hm'
    have hn := hm.of_mutuallyInverse ht
    have hn' := hm'.of_mutuallyInverse ht'
    use applyVec_mul hm', applyNormal_mul hn, applyVec_inverse ht' hm',
      applyNormal_inverse ht' hm', hm.mul hm', hn'

/-- A mirror that also scales. -/
def mirror : Transform ℚ :=
  ⟨.scaling (.of₃ 2 (-1) 4), .scaling (.of₃ (1 / 2) (1 / -1) (1 / 4))⟩

theorem apply_perspective_and_mirror :
  (perspective.Coherent ∧ (perspective.applyHomogeneous (.of₃ 1 2 3)).w ≠ 0
      ∧ ((perspective * perspective).applyHomogeneous (.of₃ 1 2 3)).w ≠ 0
      ∧ (perspective * perspective).applyPoint (.of₃ 1 2 3)
        = perspective.applyPoint (perspective.applyPoint (.of₃ 1 2 3))
      ∧ perspective.inverse.applyPoint (perspective.applyPoint (.of₃ 1 2 3)) = .of₃ 1 2 3)
    ∧ (translate (.of₃ 1 2 3) : Transform ℚ).Coherent ∧ mirror.Coherent
    ∧ (translate (.of₃ 1 2 3) : Transform ℚ).matrix.Affine ∧ mirror.matrix.Affine
    ∧ (translate (.of₃ 1 2 3) * mirror).applyNormal (.of₃ 1 2 3)
        = (translate (.of₃ 1 2 3)).applyNormal (mirror.applyNormal (.of₃ 1 2 3))
    ∧ mirror.inverse.applyNormal (mirror.applyNormal (.of₃ 1 2 3)) = .of₃ 1 2 3
  := by
  have hmoved : (translate (.of₃ 1 2 3) : Transform ℚ).Coherent := coherent_translate (.of₃ 1 2 3)
  have hmirror : mirror.Coherent :=
    Matrix4.mutuallyInverse_scaling (two_ne_zero) (by decide) (by decide)
  have hw : (perspective.applyHomogeneous (.of₃ 1 2 3)).w ≠ 0 := by
    decide +kernel
  have hw' : ((perspective * perspective).applyHomogeneous (.of₃ 1 2 3)).w ≠ 0 := by
    decide +kernel
  constructor
  · have h := (apply_mul_and_inverse coherent_perspective coherent_perspective).1 (.of₃ 1 2 3) hw
    use coherent_perspective, hw, hw', h.1 hw', h.2
  · have h := (apply_mul_and_inverse hmoved hmirror).2 rfl rfl
    use hmoved, hmirror, rfl, rfl, h.2.1 _, h.2.2.2.1 _

end Transform

end RenderKernel
