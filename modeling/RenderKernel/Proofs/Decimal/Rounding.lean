import RenderKernel.Decimal.Digits
import RenderKernel.Proofs.Number.Ratio

/-!
# Rounding to significant digits

`roundedTo digits q` is a positive number rounded half to even to a number of significant digits.
Rounding by `roundSignificant` gives this number as an integer with an exponent, also if it carries
into the next power of ten; and rounding the same number once more, to the places that the digits
reach, gives the same integer.
-/

namespace RenderKernel.Decimal

/-- A positive number rounded to a number of significant decimal digits, half to even. -/
def roundedTo (digits : Nat) (q : ℚ) : ℚ :=
  halfEven (q * 10 ^ ((digits : ℤ) - 1 - Int.log 10 q)) * 10 ^ (Int.log 10 q + 1 - digits)

variable {digits : Nat} {q : ℚ}

/-- Scaled to its significant digits, a number lies between two neighbouring powers of ten. -/
theorem scaled_bounds (hdigits : 0 < digits) (hq : 0 < q) :
  (10 : ℚ) ^ (digits - 1) ≤ q * 10 ^ ((digits : ℤ) - 1 - Int.log 10 q)
    ∧ q * 10 ^ ((digits : ℤ) - 1 - Int.log 10 q) < (10 : ℚ) ^ digits
  := by
  have hten : (0 : ℚ) < 10 := by norm_num
  have hscale := zpow_pos hten ((digits : ℤ) - 1 - Int.log 10 q)
  have hlow := Int.zpow_log_le_self (b := 10) (by decide) hq
  have hhigh := Int.lt_zpow_succ_log_self (b := 10) (by decide) q
  rw [Nat.cast_ofNat] at hlow hhigh
  constructor
  · have hpow : (10 : ℚ) ^ (digits - 1)
        = 10 ^ Int.log 10 q * 10 ^ ((digits : ℤ) - 1 - Int.log 10 q) := by
      rw [← zpow_add₀ hten.ne', ← zpow_natCast]
      congr 1
      omega
    rw [hpow]
    apply mul_le_mul_of_nonneg_right hlow hscale.le
  · have hpow : (10 : ℚ) ^ digits
        = 10 ^ (Int.log 10 q + 1) * 10 ^ ((digits : ℤ) - 1 - Int.log 10 q) := by
      rw [← zpow_add₀ hten.ne', ← zpow_natCast]
      congr 1
      omega
    rw [hpow]
    apply mul_lt_mul_of_pos_right hhigh hscale

/-- Rounded to its significant digits, a number lies between two neighbouring powers of ten, the upper
one included. -/
theorem halfEven_scaled_bounds (hdigits : 0 < digits) (hq : 0 < q) :
  10 ^ (digits - 1) ≤ halfEven (q * 10 ^ ((digits : ℤ) - 1 - Int.log 10 q))
    ∧ halfEven (q * 10 ^ ((digits : ℤ) - 1 - Int.log 10 q)) ≤ 10 ^ digits
  := by
  obtain ⟨hlow, hhigh⟩ := scaled_bounds hdigits hq
  constructor
  · rw [← halfEven_intCast (10 ^ (digits - 1))]
    apply halfEven_mono
    exact_mod_cast hlow
  · rw [← halfEven_intCast (10 ^ digits)]
    apply halfEven_mono
    exact_mod_cast hhigh.le

/-- If rounding carries into the next power of ten, the number is so near to it that it is rounded to
it with one digit less as well. -/
theorem halfEven_carried (hdigits : 0 < digits) (hq : 0 < q)
    (hcarry : halfEven (q * 10 ^ ((digits : ℤ) - 1 - Int.log 10 q)) = 10 ^ digits) :
  halfEven (q * 10 ^ ((digits : ℤ) - 1 - (Int.log 10 q + 1))) = 10 ^ (digits - 1)
  := by
  obtain ⟨-, hhigh⟩ := scaled_bounds hdigits hq
  have hnear := (isNearest_halfEven (q * 10 ^ ((digits : ℤ) - 1 - Int.log 10 q))).abs_le
  rw [hcarry] at hnear
  have htenth : q * 10 ^ ((digits : ℤ) - 1 - (Int.log 10 q + 1))
      = q * 10 ^ ((digits : ℤ) - 1 - Int.log 10 q) / 10 := by
    rw [← sub_sub, zpow_sub_one₀ (by norm_num), ← mul_assoc, div_eq_mul_inv]
  have hpow : (10 : ℚ) ^ digits = 10 ^ (digits - 1) * 10 := by
    rw [← pow_succ, Nat.sub_add_cancel hdigits]
  rw [htenth, halfEven_eq_iff]
  apply Or.inl
  push_cast at hnear ⊢
  rw [hpow] at hnear hhigh
  obtain ⟨hbelow, habove⟩ := abs_le.mp hnear
  rw [abs_lt]
  constructor
  · linarith
  · linarith

/-- The integer and the exponent of its first digit are a number rounded to significant digits, and
rounding to the place of the last digit gives the same integer again. -/
structure Rounded (digits : Nat) (q : ℚ) (n : Nat) (e : ℤ) : Prop where
  pow_le : 10 ^ (digits - 1) ≤ n
  lt_pow : n < 10 ^ digits
  roundedTo_eq : roundedTo digits q = n * 10 ^ (e + 1 - digits)
  halfEven_eq : halfEven (q * 10 ^ ((digits : ℤ) - 1 - e)) = n

/-- Rounding to significant digits finds the rounded number, whether it carries into the next power of
ten or not. -/
theorem rounded_roundSignificant {r : Ratio} (hdigits : 0 < digits) (hr : 0 < r.num) :
  Rounded digits r.toRat (roundSignificant digits r).1 (roundSignificant digits r).2
  := by
  have hq := Ratio.toRat_pos_iff.mpr hr
  obtain ⟨hlow, hhigh⟩ := halfEven_scaled_bounds hdigits hq
  have hnearest : ((r.scale10 (digits - 1 - r.floorLog10)).nearest : ℤ)
      = halfEven (r.toRat * 10 ^ ((digits : ℤ) - 1 - Int.log 10 r.toRat)) := by
    rw [Ratio.nearest_eq, Ratio.toRat_scale10, Ratio.floorLog10_eq hr]
  simp only [roundSignificant, Nat.pow_eq]
  generalize hn : (r.scale10 (digits - 1 - r.floorLog10)).nearest = n at hnearest ⊢
  rw [← hnearest] at hlow hhigh
  rw [Ratio.floorLog10_eq hr]
  split
  · rename_i hcarry
    rw [hcarry, Nat.cast_pow, Nat.cast_ofNat] at hnearest
    constructor
    · rfl
    · apply Nat.pow_lt_pow_right (by decide) (by omega)
    · have hpow : (10 : ℚ) ^ digits = 10 ^ (digits - 1) * 10 := by
        rw [← pow_succ, Nat.sub_add_cancel hdigits]
      rw [roundedTo, ← hnearest, Int.cast_pow, Int.cast_ofNat, Nat.cast_pow, Nat.cast_ofNat, hpow,
        mul_assoc, ← zpow_one_add₀ (by norm_num)]
      congr 2
      ring
    · rw [halfEven_carried hdigits hq hnearest.symm, Nat.cast_pow, Nat.cast_ofNat]
  · rename_i hstays
    constructor
    · exact_mod_cast hlow
    · apply lt_of_le_of_ne _ hstays
      exact_mod_cast hhigh
    · rw [roundedTo, ← hnearest, Int.cast_natCast]
    · apply hnearest.symm

example : roundSignificant 2 ⟨995, 10, by decide⟩ = (10, 2) := by decide +kernel

namespace Rounded

variable {n : Nat} {e : ℤ}

theorem ne_zero (h : Rounded digits q n e) :
  n ≠ 0
  := (Nat.lt_of_lt_of_le (Nat.pow_pos (by decide)) h.pow_le).ne'

/-- The exponent is that of the rounded number. -/
theorem log_eq (h : Rounded digits q n e) (hdigits : 0 < digits) :
  Int.log 10 (roundedTo digits q) = e
  := by
  obtain ⟨k, rfl⟩ := Nat.exists_eq_succ_of_ne_zero hdigits.ne'
  have hlog : Nat.log 10 n = k := Nat.log_eq_of_pow_le_of_lt_pow h.pow_le h.lt_pow
  have hmul := Ratio.log_natCast_mul_zpow (show 1 < 10 by decide) h.ne_zero (e + 1 - (k + 1 : ℕ))
  rw [Nat.cast_ofNat] at hmul
  rw [h.roundedTo_eq, hmul, hlog]
  omega

end Rounded

/-! ### Order and nearness -/

theorem ten_pos :
  (0 : ℚ) < 10
  := by norm_num

theorem zpow_eq_pow_mul {i e : ℤ} {k : Nat} (h : i = k + e) :
  (10 : ℚ) ^ i = 10 ^ k * 10 ^ e
  := by
  rw [h, zpow_add₀ ten_pos.ne', zpow_natCast]

/-- Rounding moves a number by half a unit of its last digit at most. -/
theorem abs_sub_roundedTo_le (digits : Nat) (q : ℚ) :
  |q - roundedTo digits q| ≤ 10 ^ (Int.log 10 q + 1 - digits) / 2
  := by
  have hscale : (digits : ℤ) - 1 - Int.log 10 q = -(Int.log 10 q + 1 - digits) := by ring
  rw [roundedTo, hscale]
  apply abs_sub_halfEven_le ten_pos

/-- Relatively, rounding moves a number by half a unit of the last of its digits at most. -/
theorem abs_sub_roundedTo_mul_le (hdigits : 0 < digits) (hq : 0 < q) :
  |q - roundedTo digits q| * 10 ^ (digits - 1) ≤ q / 2
  := by
  have hlow := Int.zpow_log_le_self (b := 10) (by decide) hq
  have hpow : (10 : ℚ) ^ Int.log 10 q
      = 10 ^ (digits - 1) * 10 ^ (Int.log 10 q + 1 - digits) := by
    apply zpow_eq_pow_mul
    omega
  rw [Nat.cast_ofNat, hpow] at hlow
  calc
    |q - roundedTo digits q| * 10 ^ (digits - 1)
      ≤ 10 ^ (Int.log 10 q + 1 - digits) / 2 * 10 ^ (digits - 1) :=
        mul_le_mul_of_nonneg_right (abs_sub_roundedTo_le digits q) (pow_pos ten_pos _).le
    _ ≤ q / 2 := by linarith

/-- A rounded number lies between the powers of ten around the number, both included. -/
theorem roundedTo_bounds (hdigits : 0 < digits) (hq : 0 < q) :
  10 ^ Int.log 10 q ≤ roundedTo digits q ∧ roundedTo digits q ≤ 10 ^ (Int.log 10 q + 1)
  := by
  obtain ⟨hlow, hhigh⟩ := halfEven_scaled_bounds hdigits hq
  have hunit := zpow_pos ten_pos (Int.log 10 q + 1 - digits)
  have hbelow : Int.log 10 q = (digits - 1 : ℕ) + (Int.log 10 q + 1 - digits) := by omega
  have habove : Int.log 10 q + 1 = digits + (Int.log 10 q + 1 - digits) := by ring
  constructor
  · rw [zpow_eq_pow_mul hbelow, roundedTo]
    apply mul_le_mul_of_nonneg_right _ hunit.le
    exact_mod_cast hlow
  · rw [zpow_eq_pow_mul habove, roundedTo]
    apply mul_le_mul_of_nonneg_right _ hunit.le
    exact_mod_cast hhigh

theorem roundedTo_pos (hdigits : 0 < digits) (hq : 0 < q) :
  0 < roundedTo digits q
  := (zpow_pos ten_pos _).trans_le (roundedTo_bounds hdigits hq).1

/-- Rounding keeps the exponent of a number, or carries into the next one. -/
theorem log_roundedTo_bounds (hdigits : 0 < digits) (hq : 0 < q) :
  Int.log 10 q ≤ Int.log 10 (roundedTo digits q)
    ∧ Int.log 10 (roundedTo digits q) ≤ Int.log 10 q + 1
  := by
  obtain ⟨hlow, hhigh⟩ := roundedTo_bounds hdigits hq
  have hpos := roundedTo_pos hdigits hq
  constructor
  · apply (Int.zpow_le_iff_le_log (b := 10) (by decide) hpos).mp
    rwa [Nat.cast_ofNat]
  · have hlog := Int.log_mono_right (b := 10) hpos hhigh
    have hpower := Int.log_zpow (R := ℚ) (b := 10) (by decide) (Int.log 10 q + 1)
    rw [Nat.cast_ofNat] at hpower
    rwa [hpower] at hlog

theorem roundedTo_zero (digits : Nat) :
  roundedTo digits 0 = 0
  := by
  have hround : halfEven 0 = 0 := by exact_mod_cast halfEven_intCast 0
  rw [roundedTo, zero_mul, hround, Int.cast_zero, zero_mul]

/-- Rounding keeps a number that is not negative from becoming so. -/
theorem roundedTo_nonneg (hdigits : 0 < digits) (hq : 0 ≤ q) :
  0 ≤ roundedTo digits q
  := by
  obtain rfl | hpos := hq.eq_or_lt
  · rw [roundedTo_zero]
  · apply (roundedTo_pos hdigits hpos).le

/-- Rounding keeps the order, from one power of ten to the next as well. -/
theorem roundedTo_mono {p : ℚ} (hdigits : 0 < digits) (hp : 0 ≤ p) (h : p ≤ q) :
  roundedTo digits p ≤ roundedTo digits q
  := by
  obtain rfl | hp := hp.eq_or_lt
  · rw [roundedTo_zero]
    apply roundedTo_nonneg hdigits h
  have hq := hp.trans_le h
  obtain hlt | heq := (Int.log_mono_right (b := 10) hp h).lt_or_eq
  · calc
      roundedTo digits p
      _ ≤ 10 ^ (Int.log 10 p + 1) := (roundedTo_bounds hdigits hp).2
      _ ≤ 10 ^ Int.log 10 q := zpow_le_zpow_right₀ (by norm_num) hlt
      _ ≤ roundedTo digits q := (roundedTo_bounds hdigits hq).1
  · rw [roundedTo, roundedTo, heq]
    apply mul_le_mul_of_nonneg_right _ (zpow_pos ten_pos _).le
    exact_mod_cast halfEven_mono (mul_le_mul_of_nonneg_right h (zpow_pos ten_pos _).le)

/-- A number that is given in units of its last digit is rounded to an integer of them. -/
theorem roundedTo_of_scaled {s : ℚ} {e : ℤ} (hdigits : 0 < digits)
    (hq : q = s * 10 ^ (e + 1 - digits)) (hlow : 10 ^ (digits - 1) ≤ s) (hhigh : s < 10 ^ digits) :
  roundedTo digits q = halfEven s * 10 ^ (e + 1 - digits)
  := by
  have hunit := zpow_pos ten_pos (e + 1 - (digits : ℤ))
  have hbelow : e = (digits - 1 : ℕ) + (e + 1 - digits) := by omega
  have habove : e + 1 = digits + (e + 1 - digits) := by ring
  have hlog : Int.log 10 q = e := by
    apply Ratio.log_eq_of_zpow (by decide)
    · rw [Nat.cast_ofNat, zpow_eq_pow_mul hbelow, hq]
      apply mul_le_mul_of_nonneg_right hlow hunit.le
    · rw [Nat.cast_ofNat, zpow_eq_pow_mul habove, hq]
      apply mul_lt_mul_of_pos_right hhigh hunit
  have hscale : e + 1 - digits + ((digits : ℤ) - 1 - e) = 0 := by ring
  rw [roundedTo, hlog, hq, mul_assoc, ← zpow_add₀ ten_pos.ne', hscale, zpow_zero, mul_one]

/-- A number below a power of ten, where the unit of the last digit is a tenth, carries into the power
if it is less than half of this unit away. -/
theorem roundedTo_of_below {e : ℤ} (hdigits : 0 < digits)
    (hlow : q * 10 ^ (-(e + 1 - (digits : ℤ))) < 10 ^ (digits - 1))
    (hnear : |q * 10 ^ (-(e + 1 - (digits : ℤ))) - 10 ^ (digits - 1)| < 1 / 20) :
  roundedTo digits q = 10 ^ (digits - 1) * 10 ^ (e + 1 - digits)
  := by
  have hvalue := mul_zpow_neg_mul ten_pos q (e + 1 - digits)
  generalize q * 10 ^ (-(e + 1 - (digits : ℤ))) = s at hlow hnear hvalue
  obtain ⟨hbelow, habove⟩ := abs_lt.mp hnear
  have hone : (1 : ℚ) ≤ 10 ^ (digits - 1) := one_le_pow₀ (by norm_num)
  have hdecade : (10 : ℚ) ^ digits = 10 * 10 ^ (digits - 1) := by
    rw [← pow_succ', Nat.sub_add_cancel hdigits]
  have htenth : (10 : ℚ) ^ (e + 1 - (digits : ℤ)) = 10 * 10 ^ (e - 1 + 1 - (digits : ℤ)) := by
    rw [← zpow_one_add₀ ten_pos.ne']
    congr 1
    ring
  have hround : halfEven (10 * s) = (10 ^ digits : ℕ) := by
    apply halfEven_of_near
    rw [abs_lt]
    push_cast
    rw [hdecade]
    constructor
    · linarith
    · linarith
  have hscaled : q = 10 * s * 10 ^ (e - 1 + 1 - (digits : ℤ)) := by
    rw [← hvalue, htenth]
    ring
  rw [roundedTo_of_scaled hdigits hscaled (by linarith) (by linarith), hround, htenth]
  push_cast
  rw [hdecade]
  ring

/-- What is nearer to a number of some digits than half a unit of the last one is rounded to it.
Below a power of ten the unit is a tenth of that above it. -/
theorem roundedTo_of_near {n : Nat} {e : ℤ} (hlow : 10 ^ (digits - 1) ≤ n) (hhigh : n < 10 ^ digits)
    (hdigits : 0 < digits) (hnear : |q - n * 10 ^ (e + 1 - digits)| < 10 ^ (e + 1 - digits) / 2)
    (hpower : n = 10 ^ (digits - 1) →
      |q - n * 10 ^ (e + 1 - digits)| < 10 ^ (e + 1 - digits) / 20) :
  roundedTo digits q = n * 10 ^ (e + 1 - digits)
  := by
  have hsucc : (n : ℚ) + 1 ≤ 10 ^ digits := by exact_mod_cast hhigh
  have hvalue := mul_zpow_neg_mul ten_pos q (e + 1 - digits)
  have hhalf := abs_sub_lt_of_mul_zpow ten_pos hnear
  obtain ⟨hbelow, habove⟩ := abs_lt.mp hhalf
  obtain hreaches | hmisses := le_or_gt ((10 : ℚ) ^ (digits - 1))
    (q * 10 ^ (-(e + 1 - (digits : ℤ))))
  · rw [roundedTo_of_scaled hdigits hvalue.symm hreaches (by linarith),
      halfEven_of_near (n := n) hhalf, Int.cast_natCast]
  · have hsame : n = 10 ^ (digits - 1) := by
      apply le_antisymm _ hlow
      have hlt : (n : ℚ) < 10 ^ (digits - 1) + 1 := by linarith
      exact Nat.lt_succ_iff.mp (by exact_mod_cast hlt)
    have hclose := abs_sub_lt_of_mul_zpow ten_pos (hpower hsame)
    rw [hsame] at hclose ⊢
    push_cast at hclose ⊢
    apply roundedTo_of_below hdigits hmisses hclose

end RenderKernel.Decimal
