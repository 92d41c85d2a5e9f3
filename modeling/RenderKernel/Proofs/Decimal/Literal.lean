import RenderKernel.Decimal.Literal
import RenderKernel.Proofs.Decimal.Digits
import RenderKernel.Proofs.Number.Rounding

/-!
# The value of a decimal literal

A literal is read as the magnitude nearest to its value, whatever its exponent: the cases that are
decided by the place of the first digit give what rounding gives (`Literal.magnitude_eq_nearest`).
Literals of one value, such as those that differ by zeros at the end of the coefficient, are
therefore read alike.
-/

namespace RenderKernel.Decimal.Literal

variable {f : Format} {l m : Literal}

/-- The absolute value of a literal. -/
def value (l : Literal) : ℚ := l.coefficient * 10 ^ l.exponent

/-- The ratio of a literal stands for its absolute value. -/
theorem toRat_ratio (l : Literal) :
  l.ratio.toRat = l.value
  := by
  rw [ratio, Ratio.toRat_scale10, Ratio.toRat_ofNat, value]

theorem value_eq_zero_iff :
  l.value = 0 ↔ l.coefficient = 0
  := by
  rw [value, mul_eq_zero_iff_right (zpow_ne_zero _ (by norm_num)), Nat.cast_eq_zero]

/-- A literal other than zero reaches the power of ten of its first digit. -/
theorem zpow_le_value (h : l.coefficient ≠ 0) :
  (10 : ℚ) ^ (l.top - 1) ≤ l.value
  := by
  have hten : (0 : ℚ) < 10 := by norm_num
  have hsplit : l.top - 1 = (digitCount l.coefficient - 1 : Nat) + l.exponent := by
    have hcount := digitCount_pos l.coefficient
    rw [top]
    omega
  rw [value, hsplit, zpow_add₀ hten.ne', zpow_natCast]
  apply mul_le_mul_of_nonneg_right _ (zpow_pos hten _).le
  exact_mod_cast pow_le_of_pos h

/-- A literal lies below the power of ten above its first digit. -/
theorem value_lt_zpow (l : Literal) :
  l.value < 10 ^ l.top
  := by
  have hten : (0 : ℚ) < 10 := by norm_num
  rw [value, top, zpow_add₀ hten.ne', zpow_natCast]
  apply mul_lt_mul_of_pos_right _ (zpow_pos hten _)
  exact_mod_cast lt_pow_digitCount l.coefficient

/-- The magnitude that a literal is read as is the nearest one to its value. -/
theorem magnitude_eq_nearest (f : Format) (l : Literal) :
  l.magnitude f = f.nearest l.ratio
  := by
  rw [magnitude]
  split
  · rename_i hzero
    have hnum : l.ratio.num = 0 := by
      have hiff := Ratio.toRat_pos_iff (r := l.ratio)
      rw [toRat_ratio, value_eq_zero_iff.mpr hzero, lt_self_iff_false, false_iff] at hiff
      omega
    rw [Format.nearest, if_pos hnum]
  · rename_i hne
    split
    · rename_i hlarge
      symm
      apply Format.nearest_of_le
      rw [toRat_ratio]
      apply le_trans _ (zpow_le_value hne)
      calc
        (2 : ℚ) ^ (2 ^ (f.exponentBits - 1))
        _ ≤ 10 ^ (2 ^ (f.exponentBits - 1)) := pow_le_pow_left₀ two_pos.le (by norm_num) _
        _ ≤ 10 ^ (l.top - 1) := by
            rw [← zpow_natCast]
            apply zpow_le_zpow_right₀ (by norm_num)
            rw [Nat.pow_eq] at hlarge
            omega
    · split
      · rename_i hsmall
        symm
        apply Format.nearest_of_lt
        rw [toRat_ratio]
        apply l.value_lt_zpow.trans_le
        obtain ⟨k, hk⟩ := Int.eq_ofNat_of_zero_le (sub_nonneg.mpr f.leastExponent_le_one)
        have hleast : f.leastExponent - 1 = -(k : ℤ) := by omega
        calc
          (10 : ℚ) ^ l.top
          _ ≤ 10 ^ (-(k : ℤ)) := zpow_le_zpow_right₀ (by norm_num) (by omega)
          _ ≤ 2 ^ (-(k : ℤ)) := by
              rw [zpow_neg, zpow_neg, zpow_natCast, zpow_natCast]
              apply inv_anti₀ (pow_pos two_pos k)
              apply pow_le_pow_left₀ two_pos.le (by norm_num)
          _ = 2 ^ (f.leastExponent - 1) := by rw [hleast]
      · rfl

/-- Literals of one value are read as one magnitude. -/
theorem magnitude_congr (h : l.value = m.value) :
  l.magnitude f = m.magnitude f
  := by
  rw [magnitude_eq_nearest, magnitude_eq_nearest]
  apply Format.nearest_congr
  rw [toRat_ratio, toRat_ratio, h]

/-- A literal of few digits is not clipped. -/
theorem clip_eq_self {digits : Nat} (h : digitCount l.coefficient ≤ digits) :
  l.clip digits = l
  := by
  rw [clip]
  apply if_pos
  omega

/-- A literal is read as the number with its sign and its magnitude, if that is a finite one. -/
theorem toBinary_eq {x : Binary f} (hnegative : l.negative = x.negative)
    (hmagnitude : l.magnitude f = x.magnitude) (hfinite : x.isFinite = true) :
  l.toBinary = x
  := by
  have hlt : x.magnitude < f.infinity := of_decide_eq_true hfinite
  obtain ⟨negative, magnitude, hmagnitudelt⟩ := x
  simp only at hnegative hmagnitude hlt
  rw [toBinary, hnegative, hmagnitude, Binary.saturate, Binary.mk.injEq]
  exact ⟨rfl, Nat.min_eq_left hlt.le⟩

end RenderKernel.Decimal.Literal
