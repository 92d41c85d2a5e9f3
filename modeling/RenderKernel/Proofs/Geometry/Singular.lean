import RenderKernel.Proofs.Geometry.Inverse

/-!
# Singular matrices

The determinant is multiplicative, so a matrix whose product with some matrix is the identity has a
determinant other than zero, and the cofactors find its inverse.  Hence a matrix is refused exactly
if no matrix inverts it from one side (`ofMatrix_eq_error_iff`).

Scalings and translations know their inverses without looking for them.  They decide on their own
whether they exist, and they decide as their matrices do (`scale_eq_ofMatrix`).
-/

universe u

namespace RenderKernel

namespace Matrix4

theorem determinant_diagonal {S : Type u} [CommRing S] (x y z w : S) :
  (diagonal x y z w).determinant = x * y * z * w
  := by
  simp only [determinant, Quad.dot, col₀, adjugate, diagonal]
  ring

/-- An inverse from one side is an inverse from both sides. -/
theorem mutuallyInverse_of_mul_eq_identity {K : Type u} [Field K] {m n : Matrix4 K}
    (h : m * n = identity) :
  MutuallyInverse m n
  := by
  have hdet : m.determinant * n.determinant = 1 := by
    rw [← determinant_mul, h, determinant_identity]
  have hinverse := mutuallyInverse_adjugate (left_ne_zero_of_mul_eq_one hdet)
  have hn : m.adjugate.scale (1 / m.determinant) = n :=
    left_inv_eq_right_inv hinverse.mul_left h
  rw [← hn]
  apply hinverse

end Matrix4

/-- There is one way to fail. -/
theorem TransformFault.eq_error_iff {α : Type u} {r : Except TransformFault α} :
  r = .error .singular ↔ ∀ x, r ≠ .ok x
  := by
  constructor
  · rintro rfl x h
    cases h
  · intro h
    cases r with
    | ok x => apply absurd rfl (h x)
    | error fault => rfl

namespace Transform

variable {K : Type u} [Field K] [BEq K] [LawfulBEq K]

theorem ofMatrix_matrix {t : Transform K} (h : t.Coherent) :
  ofMatrix t.matrix = .ok t
  := ofMatrix_eq_ok_iff.mpr ⟨rfl, h⟩

/-- A matrix is refused exactly if it has no inverse. -/
theorem ofMatrix_eq_error_iff {m : Matrix4 K} :
  ofMatrix m = .error .singular ↔ ¬ ∃ n, m * n = .identity
  := by
  rw [TransformFault.eq_error_iff]
  constructor
  · rintro h ⟨n, hn⟩
    have hinverse := Matrix4.mutuallyInverse_of_mul_eq_identity hn
    apply h ⟨m, n⟩
    exact ofMatrix_matrix (t := ⟨m, n⟩) hinverse
  · intro h t ht
    obtain ⟨rfl, hcoherent⟩ := ofMatrix_eq_ok_iff.mp ht
    apply h
    use t.inverseMatrix, hcoherent.mul_right

/-- A scaling is refused exactly if some factor is zero. -/
theorem scale_eq_error_iff {a : Vec K 3} :
  scale a = .error .singular ↔ a.x = 0 ∨ a.y = 0 ∨ a.z = 0
  := by
  have hfactors : (a.x = 0 ∨ a.y = 0 ∨ a.z = 0) ↔ ¬ (a.x ≠ 0 ∧ a.y ≠ 0 ∧ a.z ≠ 0) := by
    rw [not_and_or, not_and_or, not_not, not_not, not_not]
  rw [TransformFault.eq_error_iff, hfactors]
  constructor
  · intro h hne
    apply h _ (scale_eq_ok_iff.mpr ⟨hne, rfl⟩)
  · intro hzero t h
    apply hzero (scale_eq_ok_iff.mp h).1

/-- A scaling is refused or built exactly as its matrix is. -/
theorem scale_eq_ofMatrix (a : Vec K 3) :
  scale a = ofMatrix (.scaling a)
  := by
  cases h : scale a with
  | ok t =>
      rw [← ofMatrix_matrix (coherent_scale h), (scale_eq_ok_iff.mp h).2]
  | error fault =>
      have hzero : a.x = 0 ∨ a.y = 0 ∨ a.z = 0 := scale_eq_error_iff.mp h
      have hdet : (Matrix4.scaling a).determinant = 0 := by
        rw [Matrix4.scaling, Matrix4.determinant_diagonal, mul_one, mul_eq_zero, mul_eq_zero,
          or_assoc]
        apply hzero
      symm
      rw [ofMatrix, Matrix4.inverse?_of_determinant_eq_zero hdet]

/-- A matrix is refused exactly if it has no inverse from the right, and the constructors that do
not look for the inverse agree with their matrices about it: a scaling is refused, as its matrix is,
exactly if some factor is zero, and leads to the transform of its matrix otherwise, and a
translation always leads to the transform of its matrix. -/
theorem refused_iff_not_invertible :
  (∀ m : Matrix4 K, ofMatrix m = .error .singular ↔ ¬ ∃ n : Matrix4 K, m * n = .identity)
    ∧ (∀ a : Vec K 3,
        (scale a = .error .singular ∧ ofMatrix (.diagonal a.x a.y a.z 1) = .error .singular
            ∧ (a.x = 0 ∨ a.y = 0 ∨ a.z = 0))
          ∨ (∃ t : Transform K, scale a = .ok t ∧ ofMatrix (.diagonal a.x a.y a.z 1) = .ok t
            ∧ a.x ≠ 0 ∧ a.y ≠ 0 ∧ a.z ≠ 0))
    ∧ ∀ a : Vec K 3, ofMatrix (translate a).matrix = .ok (translate a)
  := by
  constructor
  · intro m
    apply ofMatrix_eq_error_iff
  · constructor
    · intro a
      have hmatrix : scale a = ofMatrix (.diagonal a.x a.y a.z 1) := scale_eq_ofMatrix a
      cases h : scale a with
      | ok t =>
          obtain ⟨⟨hx, hy, hz⟩, -⟩ := scale_eq_ok_iff.mp h
          right
          use t, rfl, hmatrix.symm.trans h, hx, hy, hz
      | error fault =>
          left
          use rfl, hmatrix.symm.trans h, scale_eq_error_iff.mp h
    · intro a
      apply ofMatrix_matrix (coherent_translate a)

/-- The matrix of the numbers from one to sixteen, whose rows are in arithmetic progression. -/
def consecutive : Matrix4 ℚ :=
  ⟨⟨1, 2, 3, 4⟩, ⟨5, 6, 7, 8⟩, ⟨9, 10, 11, 12⟩, ⟨13, 14, 15, 16⟩⟩

theorem consecutive_not_invertible :
  ofMatrix consecutive = .error .singular ∧ ¬ ∃ n : Matrix4 ℚ, consecutive * n = .identity
  := by
  have h : ofMatrix consecutive = .error .singular := by decide +kernel
  use h
  apply (refused_iff_not_invertible.1 consecutive).mp h

end Transform

end RenderKernel
