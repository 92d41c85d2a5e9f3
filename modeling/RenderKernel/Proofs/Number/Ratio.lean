import Mathlib.Algebra.Order.Floor.Semifield
import Mathlib.Data.Int.Log
import Mathlib.Data.Rat.Floor
import Mathlib.Tactic.FieldSimp
import Mathlib.Tactic.Linarith
import Mathlib.Tactic.Positivity
import Mathlib.Tactic.Ring
import RenderKernel.Number.Ratio

/-!
# The rational number of a ratio

A ratio stands for a rational number, and every question that is asked of it has an answer in terms
of this number alone: scaling multiplies it by a power, `nearest` rounds it half to even, and the
exponents of the greatest powers that it reaches are its logarithms.  Ratios that stand for the
same number are therefore interchangeable, although they need not be equal.
-/

namespace RenderKernel

/-! ### Rounding half to even -/

/-- The integer nearest to a rational number; a half goes to the even neighbour. -/
def halfEven (q : ℚ) : ℤ :=
  if q - ⌊q⌋ < 1 / 2 ∨ (q - ⌊q⌋ = 1 / 2 ∧ ⌊q⌋ % 2 = 0) then ⌊q⌋ else ⌊q⌋ + 1

/-- The integer is nearest to the number, and even if another one is as near. -/
def IsNearest (n : ℤ) (q : ℚ) : Prop := |q - n| < 1 / 2 ∨ (|q - n| = 1 / 2 ∧ n % 2 = 0)

/-- Rounding half to even gives the nearest integer. -/
theorem isNearest_halfEven (q : ℚ) :
  IsNearest (halfEven q) q
  := by
  have hbelow := Int.floor_le q
  have habove := Int.lt_floor_add_one q
  rw [halfEven]
  split
  · rename_i hdown
    rw [IsNearest, abs_of_nonneg (sub_nonneg.mpr hbelow)]
    apply hdown
  · rename_i hup
    rw [not_or, not_and, not_lt] at hup
    have hdist : |q - (⌊q⌋ + 1 : ℤ)| = ⌊q⌋ + 1 - q := by
      rw [abs_sub_comm, abs_of_nonneg]
      · push_cast
        rfl
      · push_cast
        linarith
    rw [IsNearest, hdist]
    obtain hlt | heq := hup.1.lt_or_eq
    · apply Or.inl
      linarith
    · apply Or.inr
      constructor
      · linarith
      · have hodd := hup.2 heq.symm
        omega

/-- The nearest integer is at most a half away. -/
theorem IsNearest.abs_le {n : ℤ} {q : ℚ} (h : IsNearest n q) :
  |q - n| ≤ 1 / 2
  := by
  cases h with
  | inl hlt => apply hlt.le
  | inr heq => apply heq.1.le

/-- There is only one nearest integer.  Two of them are at most one apart, and if they are exactly one
apart, both are as far as a half, so that both would be even. -/
theorem IsNearest.unique {m n : ℤ} {q : ℚ} (hm : IsNearest m q) (hn : IsNearest n q) :
  m = n
  := by
  have hdist := abs_sub_le (m : ℚ) q n
  rw [abs_sub_comm (m : ℚ) q] at hdist
  have hone : |m - n| ≤ 1 := by
    have hcast : (|m - n| : ℚ) ≤ 1 := by linarith [hm.abs_le, hn.abs_le]
    exact_mod_cast hcast
  by_contra hne
  have hapart : |m - n| = 1 := le_antisymm hone (Int.one_le_abs (sub_ne_zero.mpr hne))
  have hcast : |(m : ℚ) - n| = 1 := by exact_mod_cast hapart
  have hevenm : m % 2 = 0 := by
    cases hm with
    | inl hlt => linarith [hn.abs_le]
    | inr heq => exact heq.2
  have hevenn : n % 2 = 0 := by
    cases hn with
    | inl hlt => linarith [hm.abs_le]
    | inr heq => exact heq.2
  cases (abs_eq Int.one_nonneg).mp hapart with
  | inl h => omega
  | inr h => omega

/-- The integer that a number is rounded to is the nearest one and no other. -/
theorem halfEven_eq_iff {q : ℚ} {n : ℤ} :
  halfEven q = n ↔ IsNearest n q
  := by
  constructor
  · rintro rfl
    apply isNearest_halfEven
  · apply (isNearest_halfEven q).unique

theorem halfEven_intCast (n : ℤ) :
  halfEven n = n
  := by
  rw [halfEven_eq_iff, IsNearest, sub_self, abs_zero]
  apply Or.inl
  norm_num

/-- No integer is nearer than the nearest one. -/
theorem IsNearest.dist_le {n : ℤ} {q : ℚ} (h : IsNearest n q) (m : ℤ) :
  |q - n| ≤ |q - m|
  := by
  obtain rfl | hne := eq_or_ne n m
  · rfl
  · have hapart : (1 : ℚ) ≤ |(n : ℚ) - m| := by
      exact_mod_cast Int.one_le_abs (sub_ne_zero.mpr hne)
    have htriangle := abs_sub_le (n : ℚ) q m
    rw [abs_sub_comm (n : ℚ) q] at htriangle
    linarith [h.abs_le]

/-- The nearest integer is even if another one is as near. -/
theorem IsNearest.even_of_dist_eq {n m : ℤ} {q : ℚ} (h : IsNearest n q) (hne : n ≠ m)
    (heq : |q - n| = |q - m|) :
  n % 2 = 0
  := by
  have hapart : (1 : ℚ) ≤ |(n : ℚ) - m| := by
    exact_mod_cast Int.one_le_abs (sub_ne_zero.mpr hne)
  have htriangle := abs_sub_le (n : ℚ) q m
  rw [abs_sub_comm (n : ℚ) q] at htriangle
  cases h with
  | inl hlt => linarith
  | inr hhalf => exact hhalf.2

/-- An integer that is less than a half away is the nearest one. -/
theorem halfEven_of_near {n : ℤ} {q : ℚ} (h : |q - n| < 1 / 2) :
  halfEven q = n
  := halfEven_eq_iff.mpr (.inl h)

/-- Rounding half to even keeps the order. -/
theorem halfEven_mono {p q : ℚ} (h : p ≤ q) :
  halfEven p ≤ halfEven q
  := by
  by_contra hlt
  have hp := abs_le.mp (isNearest_halfEven p).abs_le
  have hq := abs_le.mp (isNearest_halfEven q).abs_le
  have hapart : (halfEven q : ℚ) + 1 ≤ halfEven p := by exact_mod_cast not_le.mp hlt
  obtain rfl : p = q := by linarith
  apply hlt le_rfl

/-- A number is what it is in units of a power, times the power. -/
theorem mul_zpow_neg_mul {b : ℚ} (hb : 0 < b) (q : ℚ) (k : ℤ) :
  q * b ^ (-k) * b ^ k = q
  := by
  rw [mul_assoc, ← zpow_add₀ hb.ne', neg_add_cancel, zpow_zero, mul_one]

/-- A multiple of a power, in units of the power. -/
theorem mul_zpow_mul_neg {b : ℚ} (hb : 0 < b) (n : ℚ) (k : ℤ) :
  n * b ^ k * b ^ (-k) = n
  := by
  rw [mul_assoc, ← zpow_add₀ hb.ne', add_neg_cancel, zpow_zero, mul_one]

/-- The distance to a multiple of a power is the distance to an integer, in units of the power. -/
theorem abs_sub_mul_zpow {b : ℚ} (hb : 0 < b) (q n : ℚ) (k : ℤ) :
  |q - n * b ^ k| = |q * b ^ (-k) - n| * b ^ k
  := by
  have hpow := zpow_pos hb k
  calc
    |q - n * b ^ k| = |(q * b ^ (-k) - n) * b ^ k| := by rw [sub_mul, mul_zpow_neg_mul hb]
    _ = |q * b ^ (-k) - n| * b ^ k := by rw [abs_mul, abs_of_pos hpow]

/-- Rounding to multiples of a power moves a number by half of the power at most. -/
theorem abs_sub_halfEven_le {b : ℚ} (hb : 0 < b) (q : ℚ) (k : ℤ) :
  |q - halfEven (q * b ^ (-k)) * b ^ k| ≤ b ^ k / 2
  := by
  have hnear := (isNearest_halfEven (q * b ^ (-k))).abs_le
  calc
    |q - halfEven (q * b ^ (-k)) * b ^ k|
      = |q * b ^ (-k) - halfEven (q * b ^ (-k))| * b ^ k := abs_sub_mul_zpow hb _ _ _
    _ ≤ 1 / 2 * b ^ k := mul_le_mul_of_nonneg_right hnear (zpow_pos hb k).le
    _ = b ^ k / 2 := by ring

/-- A distance below a fraction of a power is a distance below this fraction, in units of the power. -/
theorem abs_sub_lt_of_mul_zpow {b : ℚ} (hb : 0 < b) {q n d : ℚ} {k : ℤ}
    (h : |q - n * b ^ k| < b ^ k / d) :
  |q * b ^ (-k) - n| < 1 / d
  := by
  rw [abs_sub_mul_zpow hb] at h
  apply lt_of_mul_lt_mul_right _ (zpow_pos hb k).le
  rwa [one_div_mul_eq_div]

namespace Ratio

/-- The number that a ratio stands for. -/
def toRat (r : Ratio) : ℚ := r.num / r.den

variable {r s : Ratio}

theorem den_cast_pos (r : Ratio) :
  (0 : ℚ) < r.den
  := Nat.cast_pos.mpr r.den_pos

theorem toRat_nonneg (r : Ratio) :
  0 ≤ r.toRat
  := div_nonneg (Nat.cast_nonneg _) (Nat.cast_nonneg _)

/-- A ratio is positive if its numerator is. -/
theorem toRat_pos_iff :
  0 < r.toRat ↔ 0 < r.num
  := by
  rw [toRat, div_pos_iff_of_pos_right r.den_cast_pos, Nat.cast_pos]

theorem toRat_ofNat (n : Nat) :
  (ofNat n).toRat = n
  := by
  rw [toRat, ofNat, Nat.cast_one, div_one]

/-- Scaling multiplies the number by a power of the base, also by a negative one. -/
theorem toRat_scale (r : Ratio) (base : Nat) (hbase : 0 < base) (k : Int) :
  (r.scale base hbase k).toRat = r.toRat * (base : ℚ) ^ k
  := by
  have hpow : (base : ℚ) ≠ 0 := Nat.cast_ne_zero.mpr hbase.ne'
  rw [scale]
  split
  · rename_i hk
    obtain ⟨n, rfl⟩ := Int.eq_ofNat_of_zero_le hk
    rw [toRat, toRat, Nat.pow_eq, Int.toNat_natCast, zpow_natCast, Nat.cast_mul, Nat.cast_pow,
      mul_div_right_comm]
  · rename_i hk
    obtain ⟨n, hn⟩ := Int.eq_ofNat_of_zero_le (Int.neg_nonneg_of_nonpos (not_le.mp hk).le)
    obtain rfl : k = -n := by omega
    have hnat : (- -(n : ℤ)).toNat = n := by omega
    simp only [toRat, Nat.pow_eq, hnat, zpow_neg, zpow_natCast, Nat.cast_mul, Nat.cast_pow]
    rw [← div_div, div_eq_mul_inv]

theorem toRat_scale2 (r : Ratio) (k : Int) :
  (r.scale2 k).toRat = r.toRat * 2 ^ k
  := r.toRat_scale 2 _ k

theorem toRat_scale10 (r : Ratio) (k : Int) :
  (r.scale10 k).toRat = r.toRat * 10 ^ k
  := r.toRat_scale 10 _ k

/-- The absolute value of a rational number as a ratio. -/
def ofAbs (q : ℚ) : Ratio := ⟨q.num.natAbs, q.den, q.den_pos⟩

/-- The ratio of a rational number stands for its absolute value. -/
theorem toRat_ofAbs (q : ℚ) :
  (ofAbs q).toRat = |q|
  := by
  rw [toRat, ofAbs, Rat.abs_def, Rat.divInt_eq_div, Int.cast_natCast, Int.cast_natCast]

/-! ### Rounding -/

/-- The quotient without the remainder is the greatest integer up to the number. -/
theorem floor_eq (r : Ratio) :
  (r.floor : ℤ) = ⌊r.toRat⌋
  := by
  rw [toRat, Rat.floor_natCast_div_natCast]
  apply Int.natCast_ediv

/-- What is above the floor of a ratio is the remainder over the denominator. -/
theorem toRat_sub_floor (r : Ratio) :
  r.toRat - (⌊r.toRat⌋ : ℤ) = (r.num % r.den : ℕ) / (r.den : ℚ)
  := by
  have hsplit : (r.num : ℚ) = r.den * r.floor + (r.num % r.den : ℕ) := by
    exact_mod_cast (Nat.div_add_mod r.num r.den).symm
  have hfloor : ((⌊r.toRat⌋ : ℤ) : ℚ) = r.floor := by
    rw [← floor_eq, Int.cast_natCast]
  rw [hfloor, toRat, sub_eq_iff_eq_add, div_add' _ _ _ r.den_cast_pos.ne', hsplit]
  ring

/-- The integer nearest to a ratio is that of its number, rounded half to even. -/
theorem nearest_eq (r : Ratio) :
  (r.nearest : ℤ) = halfEven r.toRat
  := by
  have hlt : (r.num % r.den : ℕ) / (r.den : ℚ) < 1 / 2 ↔ 2 * (r.num % r.den) < r.den := by
    rw [div_lt_div_iff₀ r.den_cast_pos two_pos, one_mul, mul_comm]
    norm_cast
  have heq : (r.num % r.den : ℕ) / (r.den : ℚ) = 1 / 2 ↔ 2 * (r.num % r.den) = r.den := by
    rw [div_eq_div_iff r.den_cast_pos.ne' two_ne_zero, one_mul, mul_comm]
    norm_cast
  have heven : ⌊r.toRat⌋ % 2 = 0 ↔ r.floor % 2 = 0 := by
    rw [← floor_eq]
    omega
  have hnearest : r.nearest = if 2 * (r.num % r.den) < r.den
      ∨ (2 * (r.num % r.den) = r.den ∧ r.floor % 2 = 0) then r.floor else r.floor + 1 := rfl
  simp only [halfEven, toRat_sub_floor, hlt, heq, heven]
  rw [hnearest, ← floor_eq]
  split
  · rfl
  · rfl

/-! ### Logarithms -/

/-- The number of digits that are removed one by one is the logarithm. -/
theorem digitLog_eq {base : Nat} (hbase : 1 < base) (n : Nat) :
  digitLog base n = Nat.log base n
  := by
  have hgo (fuel n : Nat) (hn : n ≤ fuel) : digitLog.go base fuel n = Nat.log base n := by
    induction fuel generalizing n with
    | zero =>
        obtain rfl := Nat.le_zero.mp hn
        rw [digitLog.go, Nat.log_zero_right]
    | succ fuel ih =>
        rw [digitLog.go]
        split
        · rename_i hlt
          rw [Nat.log_of_lt hlt]
        · rename_i hge
          have hpos : 0 < n := by omega
          rw [ih, ← Nat.log_of_one_lt_of_le hbase (Nat.le_of_not_lt hge)]
          have := Nat.div_lt_self hpos hbase
          omega
  apply hgo n n le_rfl

/-- The logarithm is the only exponent whose power is reached while the next one is not. -/
theorem log_eq_of_zpow {base : Nat} (hbase : 1 < base) {k : ℤ} {q : ℚ} (hle : (base : ℚ) ^ k ≤ q)
    (hlt : q < (base : ℚ) ^ (k + 1)) :
  Int.log base q = k
  := by
  have hpos : (0 : ℚ) < base := Nat.cast_pos.mpr (by omega)
  have hq : 0 < q := (zpow_pos hpos k).trans_le hle
  apply le_antisymm
  · apply Int.lt_add_one_iff.mp
    apply (Int.lt_zpow_iff_log_lt hbase hq).mp hlt
  · apply (Int.zpow_le_iff_le_log hbase hq).mp hle

/-- Multiplying by a power adds its exponent to the logarithm. -/
theorem log_natCast_mul_zpow {base n : Nat} (hbase : 1 < base) (hn : n ≠ 0) (k : ℤ) :
  Int.log base ((n : ℚ) * (base : ℚ) ^ k) = Nat.log base n + k
  := by
  have hpos : (0 : ℚ) < base := Nat.cast_pos.mpr (by omega)
  apply log_eq_of_zpow hbase
  · rw [zpow_add₀ hpos.ne', zpow_natCast]
    apply mul_le_mul_of_nonneg_right _ (zpow_pos hpos k).le
    exact_mod_cast Nat.pow_log_le_self base hn
  · rw [add_right_comm, zpow_add₀ hpos.ne']
    apply mul_lt_mul_of_pos_right _ (zpow_pos hpos k)
    exact_mod_cast Nat.lt_pow_succ_log_self hbase n

/-- The exponent that is found is the logarithm.  Below one, the reciprocal lies between two powers, and
the ratio reaches the opposite of the lower exponent only if the reciprocal is equal to this power. -/
theorem floorLogWith_eq {log : Nat → Nat} {base : Nat} (hbase : 1 < base)
    (hlog : ∀ n, log n = Nat.log base n) (hr : 0 < r.num) :
  r.floorLogWith log base = Int.log base r.toRat
  := by
  rw [floorLogWith, hlog, hlog]
  split
  · rename_i hge
    have hone : 1 ≤ r.toRat := by
      rw [toRat, one_le_div r.den_cast_pos]
      exact_mod_cast hge
    rw [Int.log_of_one_le_right base hone, toRat, Nat.floor_div_eq_div]
  · have hnum : (0 : ℚ) < r.num := Nat.cast_pos.mpr hr
    have hpos : (0 : ℚ) < base := Nat.cast_pos.mpr (by omega)
    have hdiv : r.den / r.num ≠ 0 := (Nat.div_pos (by omega) hr).ne'
    have hlow : r.num * base ^ Nat.log base (r.den / r.num) ≤ r.den := by
      rw [mul_comm]
      apply (Nat.le_div_iff_mul_le hr).mp
      apply Nat.pow_log_le_self base hdiv
    have hhigh : r.den < r.num * base ^ (Nat.log base (r.den / r.num) + 1) := by
      rw [mul_comm]
      apply (Nat.div_lt_iff_lt_mul hr).mp
      apply Nat.lt_pow_succ_log_self hbase
    generalize Nat.log base (r.den / r.num) = k at hlow hhigh ⊢
    simp only [Nat.pow_eq]
    symm
    split
    · rename_i hreached
      have hpower : r.toRat = (base : ℚ) ^ (-(k : ℤ)) := by
        rw [toRat, ← hreached, Nat.cast_mul, Nat.cast_pow, div_mul_cancel_left₀ hnum.ne', zpow_neg,
          zpow_natCast]
      rw [hpower, Int.log_zpow hbase]
    · rename_i hmissed
      have hlow' : (r.num : ℚ) * base ^ k < r.den := by
        exact_mod_cast lt_of_le_of_ne hlow hmissed
      have hhigh' : (r.den : ℚ) < r.num * base ^ (k + 1) := by exact_mod_cast hhigh
      apply log_eq_of_zpow hbase
      · rw [← neg_add', ← Nat.cast_succ, zpow_neg, zpow_natCast, toRat,
          inv_le_iff_one_le_mul₀ (pow_pos hpos _), div_mul_eq_mul_div, one_le_div r.den_cast_pos]
        apply hhigh'.le
      · rw [sub_add_cancel, zpow_neg, zpow_natCast, toRat, div_lt_iff₀ r.den_cast_pos,
          inv_mul_eq_div, lt_div_iff₀ (pow_pos hpos _)]
        apply hlow'

/-- The exponent of the greatest power of two up to a ratio is the logarithm of its number. -/
theorem floorLog2_eq (hr : 0 < r.num) :
  r.floorLog2 = Int.log 2 r.toRat
  := floorLogWith_eq one_lt_two (fun _ => Nat.log2_eq_log_two) hr

/-- The exponent of the greatest power of ten up to a ratio is the logarithm of its number. -/
theorem floorLog10_eq (hr : 0 < r.num) :
  r.floorLog10 = Int.log 10 r.toRat
  := floorLogWith_eq (by decide) (digitLog_eq (by decide)) hr

end Ratio

end RenderKernel
