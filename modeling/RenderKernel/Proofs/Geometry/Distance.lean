import Mathlib.Tactic.NormNum
import RenderKernel.Geometry.Normal
import RenderKernel.Proofs.Geometry.Length
import RenderKernel.Proofs.Number.Real

/-!
# Lengths and distances in every dimension

The square of a distance is the dot product of the difference of two points with itself, so that it
does not matter from which of them it is measured (`Point.distanceSquared_comm`).  For vectors of
every dimension and for normals, lengths, directions and dot products agree (`length_and_dot_agree`).
-/

universe u

namespace RenderKernel

namespace Point

variable {S : Type u} {n : Nat}

theorem distanceSquared_eq_dot [Semiring S] [Sub S] (p q : Point S n) :
  p.distanceSquared q = (q - p : Vec S n).dot (q - p)
  := Vec.normSquared_eq_dot _

theorem distanceSquared_eq_sum [Semiring S] [Sub S] (p q : Point S n) :
  p.distanceSquared q
    = ∑ i, (q.components.get i - p.components.get i) * (q.components.get i - p.components.get i)
  := by
  rw [distanceSquared, Vec.normSquared_eq_sum]
  simp only [get_sub]

/-- A distance is the same from both of its ends. -/
theorem distanceSquared_comm [Ring S] (p q : Point S n) :
  p.distanceSquared q = q.distanceSquared p
  := by
  rw [distanceSquared_eq_sum, distanceSquared_eq_sum]
  apply Finset.sum_congr rfl
  intro i _
  rw [← neg_mul_neg, neg_sub]

end Point

section

variable {K : Type u} [Field K] [LinearOrder K] [IsStrictOrderedRing K] [SquareRoot K] [ExactRoot K]
  {n : Nat}

theorem Vec.normalize_dot_normalize {a : Vec K n} (h : a ≠ Primitive.zeros) :
  a.normalize.dot a.normalize = 1
  := by
  rw [← normSquared_eq_dot, normSquared_normalize h]

/-- A vector with a component other than zero is its direction times its length. -/
theorem Vec.norm_and_direction {a : Vec K n} (h : ∃ i, a.components.get i ≠ 0) :
  a.norm ≠ 0 ∧ a.normalize.dot a.normalize = 1 ∧ a.normalize * a.norm = a
  := by
  have hzeros := ne_zeros_iff.mpr h
  use norm_ne_zero hzeros, normalize_dot_normalize hzeros, normalize_mul_norm hzeros

end

/-- The square of a length is a dot product, in whatever order it is formed, and so the square of a
distance is one, from both of its ends.  With exact square roots, a vector or normal with a component
other than zero has a length other than zero, and a direction of length one, which is the vector over
this length. -/
theorem length_and_dot_agree (K : Type u) [Field K] :
  (∀ (n : Nat) (a : Vec K n), a.normSquared = a.dot a)
    ∧ (∀ a : Normal K, a.normSquared = a.dot a)
    ∧ (∀ (n : Nat) (p q : Point K n), p.distanceSquared q = q.distanceSquared p
      ∧ p.distanceSquared q = (q - p : Vec K n).dot (q - p))
    ∧ ∀ [LinearOrder K] [IsStrictOrderedRing K] [SquareRoot K] [ExactRoot K],
      (∀ (n : Nat) (a : Vec K n), (∃ i, a.components.get i ≠ 0) →
        a.norm ≠ 0 ∧ a.normalize.dot a.normalize = 1 ∧ a.normalize * a.norm = a)
      ∧ ∀ a : Normal K, (∃ i, a.components.get i ≠ 0) →
        a.norm ≠ 0 ∧ a.normalize.dot a.normalize = 1 ∧ a.normalize * a.norm = a
  := by
  refine ⟨fun n a => a.normSquared_eq_dot, fun a => a.toVec.normSquared_eq_dot, ?_, ?_⟩
  · intro n p q
    use p.distanceSquared_comm q, p.distanceSquared_eq_dot q
  · intros
    constructor
    · intro n a h
      apply Vec.norm_and_direction h
    · intro a h
      obtain ⟨hnorm, hdot, hscale⟩ := Vec.norm_and_direction (a := a.toVec) h
      use hnorm, hdot, congrArg Normal.ofVec hscale

/-- Nine components fill one block of eight lanes and leave a number over. -/
theorem length_and_dot_agree_nine :
  let a : Vec ℝ 9 := ⟨Vector.ofFn fun i => i.val⟩
  a.normSquared = a.dot a ∧ a.norm ≠ 0 ∧ a.normalize.dot a.normalize = 1
    ∧ a.normalize * a.norm = a
  := by
  intro a
  obtain ⟨hdot, -, -, hordered⟩ := length_and_dot_agree ℝ
  have hone : a.components.get 1 = (1 : Nat) := Vector.getElem_ofFn _
  use hdot 9 a
  apply hordered.1 9 a
  use 1
  rw [hone]
  norm_num

end RenderKernel
