import Mathlib.Algebra.BigOperators.Fin
import Mathlib.Algebra.Order.BigOperators.Ring.Finset
import Mathlib.Tactic.FieldSimp
import RenderKernel.Proofs.Geometry.Column
import RenderKernel.Proofs.Number.Exact

/-!
# Lengths

Over exact numbers the dot product is the sum of the products of the components, and the square of a
length is the dot product of a vector with itself, in every dimension (`Vec.normSquared_eq_dot`).
With exact square roots, a vector other than zero has a length other than zero, so that it is a unit
vector times this length (`Vec.normSquared_normalize`, `Vec.normalize_mul_norm`).
-/

universe u

namespace RenderKernel.Vec

variable {S : Type u} {n : Nat}

theorem get_normalize [Add S] [Mul S] [Zero S] [Div S] [SquareRoot S] (a : Vec S n) (i : Fin n) :
  a.normalize.components.get i = a.components.get i / a.norm
  := Column.get_divide _ _ i

theorem ne_zeros_iff [Zero S] {a : Vec S n} :
  a ≠ Primitive.zeros ↔ ∃ i, a.components.get i ≠ 0
  := by
  constructor
  · intro h
    by_contra hzero
    apply h
    apply ext_get
    intro i
    rw [get_zeros]
    by_contra hi
    apply hzero ⟨i, hi⟩
  · rintro ⟨i, hi⟩ rfl
    apply hi (get_zeros i)

theorem add_neg_eq_zeros [AddGroup S] (a : Vec S n) :
  a + -a = Primitive.zeros
  := by
  apply ext_get
  intro i
  rw [get_add, get_neg, get_zeros, add_neg_cancel]

theorem neg_add_eq_zeros [AddGroup S] (a : Vec S n) :
  -a + a = Primitive.zeros
  := by
  apply ext_get
  intro i
  rw [get_add, get_neg, get_zeros, neg_add_cancel]

/-! ### Dot products -/

/-- The dot product is the sum of the products of the components, in every dimension. -/
theorem dot_eq_sum [Semiring S] (a b : Vec S n) :
  a.dot b = ∑ i, a.components.get i * b.components.get i
  := by
  rw [dot, Column.dot_eq_foldl, Fin.sum_univ_def, List.sum_eq_foldl, List.foldl_map]

theorem dot_comm [CommSemiring S] (a b : Vec S n) :
  a.dot b = b.dot a
  := by
  rw [dot_eq_sum, dot_eq_sum]
  simp only [mul_comm]

theorem scale_dot [CommSemiring S] (k : S) (a b : Vec S n) :
  (a * k).dot b = a.dot b * k
  := by
  rw [dot_eq_sum, dot_eq_sum, Finset.sum_mul]
  simp only [get_scale, mul_right_comm]

/-- The square of the length is formed in another order than the dot product, but is the same. -/
theorem normSquared_eq_dot [Semiring S] (a : Vec S n) :
  a.normSquared = a.dot a
  := Column.normSquared_eq_dot _

/-- The squared length is the sum of the squares of the components, in every dimension. -/
theorem normSquared_eq_sum [Semiring S] (a : Vec S n) :
  a.normSquared = ∑ i, a.components.get i * a.components.get i
  := by
  rw [normSquared_eq_dot, dot_eq_sum]

theorem normSquared_zeros [Semiring S] :
  (Primitive.zeros : Vec S n).normSquared = 0
  := by
  rw [normSquared_eq_sum]
  simp only [get_zeros, mul_zero, Finset.sum_const_zero]

theorem normSquared_scale [CommSemiring S] (a : Vec S n) (k : S) :
  (a * k).normSquared = a.normSquared * (k * k)
  := by
  rw [normSquared_eq_dot, normSquared_eq_dot, scale_dot, dot_comm, scale_dot, mul_assoc]

/-! ### Directions -/

theorem normalize_eq_scale {K : Type u} [Field K] [SquareRoot K] (a : Vec K n) :
  a.normalize = a * (1 / a.norm)
  := by
  apply ext_get
  intro i
  rw [get_normalize, get_scale, mul_one_div]

section Ordered

variable {K : Type u} [Field K] [LinearOrder K] [IsStrictOrderedRing K]

theorem normSquared_nonneg (a : Vec K n) :
  0 ≤ a.normSquared
  := by
  rw [normSquared_eq_sum]
  apply Finset.sum_nonneg
  intro i _
  apply mul_self_nonneg

/-- Only the zero vector has length zero. -/
theorem eq_zeros_of_normSquared_eq_zero {a : Vec K n} (h : a.normSquared = 0) :
  a = Primitive.zeros
  := by
  rw [normSquared_eq_sum, Finset.sum_eq_zero_iff_of_nonneg fun i _ => mul_self_nonneg _] at h
  apply ext_get
  intro i
  rw [get_zeros]
  apply mul_self_eq_zero.mp (h i (Finset.mem_univ i))

/-- Every vector but zero has a positive squared length. -/
theorem normSquared_pos {a : Vec K n} (h : a ≠ Primitive.zeros) :
  0 < a.normSquared
  := lt_of_le_of_ne (normSquared_nonneg a) fun hzero => h (eq_zeros_of_normSquared_eq_zero hzero.symm)

variable [SquareRoot K] [ExactRoot K]

theorem norm_nonneg (a : Vec K n) :
  0 ≤ a.norm
  := ExactRoot.sqrt_nonneg _ (normSquared_nonneg a)

theorem norm_mul_norm (a : Vec K n) :
  a.norm * a.norm = a.normSquared
  := ExactRoot.sqrt_mul_sqrt _ (normSquared_nonneg a)

theorem norm_ne_zero {a : Vec K n} (h : a ≠ Primitive.zeros) :
  a.norm ≠ 0
  := by
  intro hnorm
  apply h
  apply eq_zeros_of_normSquared_eq_zero
  rw [← norm_mul_norm, hnorm, zero_mul]

/-- A vector other than zero is its direction times its length. -/
theorem normalize_mul_norm {a : Vec K n} (h : a ≠ Primitive.zeros) :
  a.normalize * a.norm = a
  := by
  apply ext_get
  intro i
  rw [get_scale, get_normalize, div_mul_cancel₀ _ (norm_ne_zero h)]

/-- The direction of a vector other than zero has length one. -/
theorem normSquared_normalize {a : Vec K n} (h : a ≠ Primitive.zeros) :
  a.normalize.normSquared = 1
  := by
  have hnorm := norm_ne_zero h
  rw [normalize_eq_scale, normSquared_scale, ← norm_mul_norm]
  field_simp

/-- The length of a positive multiple is that multiple of the length. -/
theorem norm_mul {k : K} (hk : 0 < k) (a : Vec K n) :
  (a * k).norm = a.norm * k
  := by
  apply (mul_self_inj (norm_nonneg _) (mul_nonneg (norm_nonneg a) hk.le)).mp
  calc
    (a * k).norm * (a * k).norm = (a * k).normSquared := norm_mul_norm _
    _ = a.norm * a.norm * (k * k) := by rw [normSquared_scale, norm_mul_norm]
    _ = a.norm * k * (a.norm * k) := mul_mul_mul_comm _ _ _ _

/-- Positive multiples of a vector have its direction. -/
theorem normalize_mul {k : K} (hk : 0 < k) (a : Vec K n) :
  (a * k).normalize = a.normalize
  := by
  apply ext_get
  intro i
  rw [get_normalize, get_normalize, get_scale, norm_mul hk, mul_div_mul_right _ _ hk.ne']

end Ordered

end RenderKernel.Vec
