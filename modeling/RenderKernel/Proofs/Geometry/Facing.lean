import RenderKernel.Proofs.Geometry.Affine
import RenderKernel.Proofs.Geometry.Pairing

/-!
# Normals that face a vector

A normal is flipped if its pairing with a vector is negative, so that afterwards the pairing is the
absolute value of what it was (`Normal.dotVec_faceForward`).

Whether a normal is flipped depends on the pairing alone.  A transform that keeps pairings therefore
flips the image of a normal exactly if it flips the normal (`Transform.applyNormal_faceForward`),
and affine transforms do, those that mirror included.
-/

universe u

namespace RenderKernel

/-! ### Opposite normals -/

namespace Normal

variable {S : Type u}

theorem neg_x [Neg S] (n : Normal S) :
  (-n).x = -n.x
  := Vector.getElem_map _ _

theorem neg_y [Neg S] (n : Normal S) :
  (-n).y = -n.y
  := Vector.getElem_map _ _

theorem neg_z [Neg S] (n : Normal S) :
  (-n).z = -n.z
  := Vector.getElem_map _ _

/-- The opposite normal is the opposite vector. -/
theorem toVec_neg [Neg S] (n : Normal S) :
  (-n).toVec = -n.toVec
  := rfl

theorem neg_neg [InvolutiveNeg S] (n : Normal S) :
  - -n = n
  := by
  apply ext_three
  · rw [neg_x, neg_x, InvolutiveNeg.neg_neg]
  · rw [neg_y, neg_y, InvolutiveNeg.neg_neg]
  · rw [neg_z, neg_z, InvolutiveNeg.neg_neg]

/-- The opposite normal is paired with the opposite sign. -/
theorem neg_dotVec [CommRing S] (n : Normal S) (a : Vec S 3) :
  (-n).dotVec a = -n.dotVec a
  := by
  simp only [dotVec, neg_x, neg_y, neg_z]
  ring

/-- A normal is paired with the opposite vector with the opposite sign. -/
theorem dotVec_neg [CommRing S] (n : Normal S) (a : Vec S 3) :
  n.dotVec (-a) = -n.dotVec a
  := by
  simp only [dotVec, Vec.neg_x, Vec.neg_y, Vec.neg_z]
  ring

end Normal

/-- Transforming a normal commutes with taking the opposite, whatever the transform. -/
theorem Transform.applyNormal_neg {K : Type u} [Field K] (t : Transform K) (n : Normal K) :
  t.applyNormal (-n) = -t.applyNormal n
  := by
  have hx (n : Normal K) :
      (t.applyNormal n).x = t.inverseMatrix.col₀.covector.dotVec n.toVec := rfl
  have hy (n : Normal K) :
      (t.applyNormal n).y = t.inverseMatrix.col₁.covector.dotVec n.toVec := rfl
  have hz (n : Normal K) :
      (t.applyNormal n).z = t.inverseMatrix.col₂.covector.dotVec n.toVec := rfl
  apply Normal.ext_three
  · rw [hx, Normal.neg_x, hx, Normal.toVec_neg, Normal.dotVec_neg]
  · rw [hy, Normal.neg_y, hy, Normal.toVec_neg, Normal.dotVec_neg]
  · rw [hz, Normal.neg_z, hz, Normal.toVec_neg, Normal.dotVec_neg]

/-! ### Facing a vector -/

section Ordered

variable {K : Type u} [Field K] [LinearOrder K]

namespace Normal

variable {n : Normal K} {a : Vec K 3}

/-- A normal that points away from a vector is turned around. -/
theorem faceForward_of_neg (h : n.dotVec a < 0) :
  n.faceForward a = -n
  := if_pos h

/-- A normal that does not point away from a vector stays as it is. -/
theorem faceForward_of_nonneg (h : 0 ≤ n.dotVec a) :
  n.faceForward a = n
  := if_neg (not_lt_of_ge h)

variable [IsStrictOrderedRing K]

/-- The normal that faces a vector is paired with it to the absolute value. -/
theorem dotVec_faceForward (n : Normal K) (a : Vec K 3) :
  (n.faceForward a).dotVec a = |n.dotVec a|
  := by
  cases lt_or_ge (n.dotVec a) 0 with
  | inl h => rw [faceForward_of_neg h, neg_dotVec, abs_of_neg h]
  | inr h => rw [faceForward_of_nonneg h, abs_of_nonneg h]

/-- What faces a vector is not flipped again. -/
theorem faceForward_faceForward (n : Normal K) (a : Vec K 3) :
  (n.faceForward a).faceForward a = n.faceForward a
  := by
  apply faceForward_of_nonneg
  rw [dotVec_faceForward]
  apply abs_nonneg

/-- The two sides of a surface lead to the same normal, unless the vector lies in the surface. -/
theorem neg_faceForward (h : n.dotVec a ≠ 0) :
  (-n).faceForward a = n.faceForward a
  := by
  have hopposite := neg_dotVec n a
  cases lt_or_gt_of_ne h with
  | inl hneg =>
      have hpos : 0 ≤ (-n).dotVec a := by
        rw [hopposite]
        apply (neg_pos_of_neg hneg).le
      rw [faceForward_of_nonneg hpos, faceForward_of_neg hneg]
  | inr hpos =>
      have hneg : (-n).dotVec a < 0 := by
        rw [hopposite]
        apply neg_neg_of_pos hpos
      rw [faceForward_of_neg hneg, faceForward_of_nonneg hpos.le, neg_neg]

end Normal

namespace Transform

/-- Where pairings are kept, flipping before and after a transform is the same. -/
theorem applyNormal_faceForward {t : Transform K} (h : t.KeepsPairing) (n : Normal K)
    (a : Vec K 3) :
  t.applyNormal (n.faceForward a) = (t.applyNormal n).faceForward (t.applyVec a)
  := by
  have hpairing := h n a
  cases lt_or_ge (n.dotVec a) 0 with
  | inl hneg =>
      rw [Normal.faceForward_of_neg hneg, Normal.faceForward_of_neg (hpairing.trans_lt hneg),
        applyNormal_neg]
  | inr hnonneg =>
      rw [Normal.faceForward_of_nonneg hnonneg,
        Normal.faceForward_of_nonneg (hnonneg.trans_eq hpairing.symm)]

variable [IsStrictOrderedRing K]

/-- A normal that faces a vector is paired with it by the absolute value of the pairing, is not
flipped again, does not depend on the side of the surface, and stays so under affine transforms: it
does not matter whether a normal is flipped before or after it is mapped. -/
theorem faceForward_fits :
  (∀ (n : Normal K) (a : Vec K 3), (n.faceForward a).dotVec a = |n.dotVec a|
      ∧ (n.faceForward a).faceForward a = n.faceForward a
      ∧ (n.dotVec a ≠ 0 → (-n).faceForward a = n.faceForward a))
    ∧ ∀ t : Transform K, t.Coherent → t.matrix.Affine → ∀ (n : Normal K) (a : Vec K 3),
        t.applyNormal (n.faceForward a) = (t.applyNormal n).faceForward (t.applyVec a)
  := by
  constructor
  · intro n a
    use n.dotVec_faceForward a, n.faceForward_faceForward a, Normal.neg_faceForward
  · intro t ht haffine
    have hkeeps : t.KeepsPairing := (keepsPairing_iff ht).mpr (.inr haffine.flat)
    apply applyNormal_faceForward hkeeps

end Transform

end Ordered

/-- Facing forward commutes with a mirroring, which turns the orientation of space around. -/
theorem Transform.mirror_faceForward_fits :
  (Normal.of₃ 1 2 3 : Normal ℚ).dotVec (.of₃ 0 1 (-1)) ≠ 0
    ∧ (-(Normal.of₃ 1 2 3 : Normal ℚ)).faceForward (.of₃ 0 1 (-1))
      = (Normal.of₃ 1 2 3).faceForward (.of₃ 0 1 (-1))
    ∧ mirror.Coherent ∧ mirror.matrix.Affine
    ∧ mirror.applyNormal ((Normal.of₃ 1 2 3).faceForward (.of₃ 0 1 (-1)))
      = (mirror.applyNormal (.of₃ 1 2 3)).faceForward (mirror.applyVec (.of₃ 0 1 (-1)))
  := by
  have hne : (Normal.of₃ 1 2 3 : Normal ℚ).dotVec (.of₃ 0 1 (-1)) ≠ 0 := by
    decide +kernel
  have hmirror : mirror.Coherent :=
    Matrix4.mutuallyInverse_scaling two_ne_zero (by decide) (by decide)
  use hne, (faceForward_fits.1 _ _).2.2 hne, hmirror, rfl
  apply faceForward_fits.2 mirror hmirror rfl

end RenderKernel
