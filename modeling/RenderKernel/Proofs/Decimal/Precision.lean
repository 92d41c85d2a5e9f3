import RenderKernel.Decimal.Shortest
import RenderKernel.Proofs.Decimal.Literal
import RenderKernel.Proofs.Decimal.Rounding
import RenderKernel.Proofs.Number.Nearest

/-!
# Decimals that are read as a number

The decimals that are read as a number lie without gaps around its value, since rounding keeps the
order: what lies between one of them and the value is read as the number too
(`Literal.magnitude_of_le`, `Literal.magnitude_of_ge`).

For every finite number there is such a decimal with enough digits.  If the digits are finer than the
bits, the number rounded to them is read back (`Binary.nearest_of_lossless`), and the number of digits
that is enough for a format makes them so (`double_fractions_lt`).
-/

namespace RenderKernel

open Decimal

variable {f : Format} {x : Binary f}

namespace Decimal.Literal

variable {l m : Literal}

/-- What lies between a decimal that is read as a number and the value of the number, above the decimal,
is read as the number. -/
theorem magnitude_of_le (hfinite : x.isFinite = true) (hread : l.magnitude f = x.magnitude)
    (hlow : l.value ≤ m.value) (hhigh : m.value ≤ x.ratio.toRat) :
  m.magnitude f = x.magnitude
  := by
  rw [magnitude_eq_nearest] at hread ⊢
  rw [← toRat_ratio, ← toRat_ratio] at hlow
  rw [← toRat_ratio] at hhigh
  apply Binary.nearest_eq_of_between hlow hhigh hread
  apply x.nearest_ratio (of_decide_eq_true hfinite)

/-- What lies between a decimal that is read as a number and the value of the number, below the decimal,
is read as the number. -/
theorem magnitude_of_ge (hfinite : x.isFinite = true) (hread : l.magnitude f = x.magnitude)
    (hlow : x.ratio.toRat ≤ m.value) (hhigh : m.value ≤ l.value) :
  m.magnitude f = x.magnitude
  := by
  rw [magnitude_eq_nearest] at hread ⊢
  rw [← toRat_ratio, ← toRat_ratio] at hhigh
  rw [← toRat_ratio] at hlow
  apply Binary.nearest_eq_of_between hlow hhigh _ hread
  apply x.nearest_ratio (of_decide_eq_true hfinite)

/-- A decimal that is read as a number other than zero is not zero. -/
theorem coefficient_ne_zero (hread : l.magnitude f = x.magnitude) (h : x.magnitude ≠ 0) :
  l.coefficient ≠ 0
  := by
  intro hzero
  rw [magnitude, if_pos hzero] at hread
  apply h hread.symm

end Decimal.Literal

namespace Binary

variable {digits : Nat} {r : Ratio}

/-- If the digits are finer than the bits, what is nearest to the rounded number is the number. -/
theorem nearest_of_lossless (hfinite : x.isFinite = true)
    (hdigits : 2 * f.fractions < 10 ^ (digits - 1)) (hpos : 0 < digits)
    (hr : r.toRat = roundedTo digits x.ratio.toRat) :
  f.nearest r = x.magnitude
  := by
  by_cases hzero : x.magnitude = 0
  · have hnum : r.num = 0 := by
      have hvalue := toRat_ratio_of_isZero (x := x) (beq_iff_eq.mpr hzero)
      rw [hvalue, roundedTo_zero] at hr
      have hiff := Ratio.toRat_pos_iff (r := r)
      rw [hr, lt_self_iff_false, false_iff] at hiff
      exact Nat.eq_zero_of_not_pos hiff
    rw [Format.nearest, if_pos hnum, hzero]
  · have hx := Ratio.toRat_pos_iff.mpr (x.num_ratio_pos_iff.mpr hzero)
    have hfine : 2 * (f.fractions : ℚ) < 10 ^ (digits - 1) := by exact_mod_cast hdigits
    have hunit := zpow_pos (two_pos (α := ℚ)) x.exponent
    have hmove := abs_sub_roundedTo_mul_le hpos hx
    rw [abs_sub_comm, ← hr] at hmove
    have hmoved {b : ℚ} (hb : x.ratio.toRat ≤ b * (2 * f.fractions)) (hb' : 0 < b) :
        |r.toRat - x.ratio.toRat| < b / 2 := by
      apply lt_of_mul_lt_mul_right _ (pow_pos ten_pos (digits - 1)).le
      have := mul_lt_mul_of_pos_left hfine hb'
      linarith
    apply nearest_of_near hfinite hzero
    · apply hmoved _ hunit
      have := x.lastPlace_ratio.lt
      linarith
    · intro hpower
      have hhalf : |r.toRat - x.ratio.toRat| < 2 ^ x.exponent / 2 / 2 := by
        apply hmoved
        · rw [toRat_ratio, hpower]
          linarith
        · linarith
      linarith

/-- If `b / a` is no less than the decimal logarithm of two, digits are finer than bits as soon as there
are more than `b / a` times as many. -/
theorem two_pow_lt_ten_pow {a b m n : Nat} (hlogarithm : 2 ^ a ≤ 10 ^ b) (h : b * m < n * a) :
  2 ^ m < 10 ^ n
  := by
  apply lt_of_pow_lt_pow_left₀ a (Nat.zero_le _)
  calc
    (2 ^ m) ^ a
    _ = (2 ^ a) ^ m := Nat.pow_right_comm 2 m a
    _ ≤ (10 ^ b) ^ m := Nat.pow_le_pow_left hlogarithm m
    _ = 10 ^ (b * m) := (Nat.pow_mul 10 b m).symm
    _ < 10 ^ (n * a) := Nat.pow_lt_pow_right (by decide) h
    _ = (10 ^ n) ^ a := Nat.pow_mul 10 n a

/-- Enough digits of a format are finer than its bits. -/
theorem double_fractions_lt (f : Format) :
  2 * f.fractions < 10 ^ (enoughDigits f - 1)
  := by
  have hbits : 2 * f.fractions = 2 ^ (f.fractionBits + 1) := Nat.pow_succ'.symm
  rw [hbits]
  apply two_pow_lt_ten_pow (a := 100000) (b := 30103)
  · decide +kernel
  · rw [enoughDigits]
    omega

/-- For every finite number there is a decimal of enough digits that is read as the number. -/
theorem exists_magnitude_eq (hfinite : x.isFinite = true) (h : x.magnitude ≠ 0) :
  ∃ l : Literal, l.coefficient < 10 ^ enoughDigits f ∧ l.magnitude f = x.magnitude
  := by
  have hpos : 0 < enoughDigits f := Nat.succ_pos _
  have hrounded := rounded_roundSignificant hpos (x.num_ratio_pos_iff.mpr h)
  use ⟨false, (roundSignificant (enoughDigits f) x.ratio).1,
    (roundSignificant (enoughDigits f) x.ratio).2 + 1 - enoughDigits f⟩, hrounded.lt_pow
  rw [Literal.magnitude_eq_nearest]
  apply nearest_of_lossless hfinite (double_fractions_lt f) hpos
  rw [Literal.toRat_ratio, hrounded.roundedTo_eq, Literal.value]

end Binary

end RenderKernel
