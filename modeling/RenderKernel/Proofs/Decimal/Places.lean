import RenderKernel.Proofs.Decimal.Numeral
import RenderKernel.Proofs.Decimal.Rounding

/-!
# Decimal places

A number has `k` places if it is an integer over the power of ten with the exponent `k`
(`HasPlaces`).  Rounding to significant digits adds no places (`HasPlaces.roundedTo`), and a numeral
is as long as the places and the exponent of its number allow: a plain one has no more digits behind
its point than the number has places, and a scientific one no more than there are places behind the
first digit.
-/

namespace RenderKernel.Decimal

/-- The number is a natural number over a power of ten. -/
def HasPlaces (k : Nat) (q : ℚ) : Prop := ∃ n : Nat, q * 10 ^ k = n

namespace HasPlaces

variable {k : Nat} {q : ℚ}

/-- A number other than zero reaches its last place. -/
theorem log_add_nonneg (h : HasPlaces k q) (hq : 0 < q) :
  0 ≤ Int.log 10 q + k
  := by
  obtain ⟨n, hn⟩ := h
  have hone : (1 : ℚ) ≤ q * 10 ^ k := by
    have hpos : 0 < q * 10 ^ k := mul_pos hq (pow_pos ten_pos k)
    rw [hn] at hpos ⊢
    exact_mod_cast hpos
  have hreach : (10 : ℚ) ^ (-(k : ℤ)) ≤ q := by
    rwa [zpow_neg, zpow_natCast, inv_le_iff_one_le_mul₀ (pow_pos ten_pos k)]
  have hlog := (Int.zpow_le_iff_le_log (b := 10) (by decide) hq).mp (by rwa [Nat.cast_ofNat])
  omega

/-- Rounding to significant digits adds no places: it cuts some off, or the number stays as it is. -/
theorem roundedTo (h : HasPlaces k q) (digits : Nat) (hq : 0 ≤ q) :
  HasPlaces k (roundedTo digits q)
  := by
  obtain ⟨n, hn⟩ := h
  have hscale : Int.log 10 q + 1 - digits = -((digits : ℤ) - 1 - Int.log 10 q) := by ring
  rw [Decimal.roundedTo, hscale]
  generalize (digits : ℤ) - 1 - Int.log 10 q = j
  obtain hle | hlt := le_or_gt (k : ℤ) j
  · obtain ⟨i, hi⟩ := Int.eq_ofNat_of_zero_le (sub_nonneg.mpr hle)
    have hscaled : q * 10 ^ j = (n * 10 ^ i : ℕ) := by
      rw [show j = k + i by omega, zpow_add₀ ten_pos.ne', zpow_natCast, zpow_natCast, ← mul_assoc, hn]
      push_cast
      rfl
    have hkept : (halfEven (q * 10 ^ j) : ℚ) = q * 10 ^ j := by
      rw [hscaled]
      exact_mod_cast halfEven_intCast (n * 10 ^ i : ℕ)
    use n
    rw [hkept, mul_zpow_mul_neg ten_pos, hn]
  · obtain ⟨i, hi⟩ := Int.eq_ofNat_of_zero_le (sub_nonneg.mpr hlt.le)
    have hnonneg : 0 ≤ halfEven (q * 10 ^ j) := by
      rw [← halfEven_intCast 0]
      apply halfEven_mono
      exact_mod_cast mul_nonneg hq (zpow_pos ten_pos j).le
    obtain ⟨m, hm⟩ := Int.eq_ofNat_of_zero_le hnonneg
    use m * 10 ^ i
    rw [hm, Int.cast_natCast, mul_assoc, ← zpow_natCast, ← zpow_add₀ ten_pos.ne',
      show -j + (k : ℤ) = i by omega, zpow_natCast]
    push_cast
    rfl

/-- The places of the mantissa are those behind the first digit. -/
theorem mantissa {m : ℚ} {e : ℤ} (h : HasPlaces k (m * 10 ^ e)) (he : 0 ≤ e + k) :
  HasPlaces (e + k).toNat m
  := by
  obtain ⟨n, hn⟩ := h
  use n
  rw [← hn, mul_assoc, ← zpow_natCast, ← zpow_natCast, ← zpow_add₀ ten_pos.ne', Int.toNat_of_nonneg he]

end HasPlaces

/-- With the places behind it, a number has as many digits as the power of ten above it says. -/
theorem log_add_lt {k d : Nat} {q : ℚ} (hq : 0 < q) (h : q * 10 ^ k < 10 ^ d) :
  Int.log 10 q + k < d
  := by
  have hbelow : q < (10 : ℚ) ^ ((d : ℤ) - k) := by
    rwa [zpow_sub₀ ten_pos.ne', zpow_natCast, zpow_natCast, lt_div_iff₀ (pow_pos ten_pos k)]
  have hlog := (Int.lt_zpow_iff_log_lt (b := 10) (by decide) hq).mp (by rwa [Nat.cast_ofNat])
  omega

/-! ### Lengths -/

theorem length_pointed_le (whole fraction : List Char) :
  (pointed whole fraction).length ≤ whole.length + 1 + fraction.length
  := by
  obtain rfl | hne := eq_or_ne fraction []
  · rw [pointed_nil]
    omega
  · rw [pointed_of_ne_nil whole hne, List.length_append, List.length_cons]
    omega

namespace Concise

variable {whole fraction : List Char} {k : Nat}

/-- The digits before the point spell a number that is not greater. -/
theorem ofDigits_whole_le (whole fraction : List Char) :
  (ofDigits whole : ℚ) ≤ pointValue whole fraction
  := by
  have hpow := pow_pos ten_pos fraction.length
  rw [← mul_le_mul_iff_of_pos_right hpow, pointValue_mul_pow, ofDigits_append]
  push_cast
  apply le_add_of_nonneg_right (Nat.cast_nonneg _)

/-- As many digits stand before the point as the exponent says, and one if it is negative. -/
theorem length_whole_le (h : Concise whole fraction) :
  (whole.length : ℤ) ≤ max 1 (Int.log 10 (pointValue whole fraction) + 1)
  := by
  have hlength := congrArg List.length
    (eq_plain_of_leading h.digits_whole h.whole_ne_nil h.leading)
  rw [length_plain] at hlength
  rw [hlength]
  obtain hzero | hpos := eq_or_ne (ofDigits whole) 0
  · rw [hzero]
    exact Int.le_max_left _ _
  · have hle := ofDigits_whole_le whole fraction
    have hlow : (10 : ℚ) ^ ((digitCount (ofDigits whole) - 1 : ℕ) : ℤ) ≤ pointValue whole fraction := by
      rw [zpow_natCast]
      apply le_trans _ hle
      exact_mod_cast pow_le_of_pos hpos
    have hpositive := (zpow_pos ten_pos _).trans_le hlow
    have hlog := (Int.zpow_le_iff_le_log (b := 10) (by decide) hpositive).mp (by rwa [Nat.cast_ofNat])
    omega

/-- Not more digits stand behind the point than the number has places. -/
theorem length_fraction_le (h : Concise whole fraction)
    (hk : HasPlaces k (pointValue whole fraction)) :
  fraction.length ≤ k
  := by
  obtain ⟨n, hn⟩ := hk
  have hspelled : pointValue (plain (n / 10 ^ k)) (padded k (n % 10 ^ k)) = pointValue whole fraction := by
    rw [pointValue_plain_padded, ← hn, ← zpow_natCast, mul_zpow_mul_neg ten_pos]
  have hle := h.length_le hspelled
  rwa [length_padded] at hle

end Concise

variable {k : Nat} {q : ℚ} {e : ℤ} {cs : List Char}

/-- A plain numeral is no longer than its digits in front of the point, the point and its places. -/
theorem IsPlain.length_le (h : IsPlain q cs) (hk : HasPlaces k q) :
  (cs.length : ℤ) ≤ max 1 (Int.log 10 q + 1) + 1 + k
  := by
  obtain ⟨whole, fraction, hconcise, rfl, rfl⟩ := h
  have hwhole := hconcise.length_whole_le
  have hfraction := hconcise.length_fraction_le hk
  have hlength := length_pointed_le whole fraction
  omega

/-- A scientific numeral is no longer than its digits, the point and its exponent. -/
theorem IsScientific.length_le (h : IsScientific q e cs) (hk : HasPlaces k q) (he : 0 ≤ e + k) :
  (cs.length : ℤ) ≤ 2 + (e + k) + 2 + max 2 (digitCount e.natAbs)
  := by
  obtain ⟨m, mantissa, ds, hplain, hone, hten, rfl, hexponent, rfl⟩ := h
  have hlog : Int.log 10 m = 0 := by
    apply Ratio.log_eq_of_zpow (by decide)
    · rwa [zpow_zero]
    · rwa [zero_add, zpow_one, Nat.cast_ofNat]
  have hmantissa := hplain.length_le (hk.mantissa he)
  rw [hlog] at hmantissa
  rw [List.length_append, List.length_cons, List.length_cons, hexponent.length_eq]
  omega

end RenderKernel.Decimal
