import RenderKernel.Proofs.Decimal.Numeral
import RenderKernel.Proofs.Decimal.Rounding
import RenderKernel.Proofs.Number.Rounding
import RenderKernel.Text.Significant

/-!
# The text of a number rounded to significant digits

`Binary.significantText n x` is the text of `x` rounded to at most `n` significant digits: positional
notation for decimal exponents from `-4` up to `n - 1`, scientific notation with a signed exponent of at
least two digits otherwise, no zeros at the end of a fraction.  The exponent is that of the rounded
value, so that `9999.7` has the text `1e+04` with four digits.  It says what is shown of a number,
without the detour on which the text is found.

The text is a numeral of the rounded number, plain or scientific.  The plain numeral is found by
rounding a second time, to a number of places that depends on the first rounding, and both denote the
same number.
-/

namespace RenderKernel.Significant

open Decimal

variable {digits n : Nat} {e : ℤ} {r : Ratio}

/-- The text of a positive ratio with at most `digits` significant digits, for at least one digit.
Positional notation rounds the ratio itself again, to as many places as the digits reach. -/
def positiveText (digits : Nat) (r : Ratio) : Except FormatFault (List Char) := do
  checkPrecision (digits - 1)
  let (n, e) := roundSignificant digits r
  if e < -4 ∨ (digits : Int) ≤ e then
    return trimFraction (mantissaText digits n) ++ exponentText e
  else
    let places := ((digits : Int) - 1 - e).toNat
    checkPrecision places
    return trimFraction (fixedText places r)

/-- The text is the numeral of a positive number in the notation that its exponent calls for: plain
from `-4` up to the number of significant digits, scientific otherwise. -/
def IsNumeral (digits : Nat) (q : ℚ) (cs : List Char) : Prop :=
  if -4 ≤ Int.log 10 q ∧ Int.log 10 q < digits then
    IsPlain q cs
  else
    IsScientific q (Int.log 10 q) cs

namespace IsNumeral

variable {q : ℚ} {cs ds : List Char}

/-- A number has at most one numeral. -/
theorem unique (h : IsNumeral digits q cs) (h' : IsNumeral digits q ds) :
  cs = ds
  := by
  rw [IsNumeral] at h h'
  split at h
  · rename_i hplain
    rw [if_pos hplain] at h'
    apply h.unique h'
  · rename_i hscientific
    rw [if_neg hscientific] at h'
    apply h.unique h'

theorem exists_cons (h : IsNumeral digits q cs) :
  ∃ c ds, c.isDigit = true ∧ cs = c :: ds
  := by
  rw [IsNumeral] at h
  split at h
  · apply h.exists_cons
  · apply h.exists_cons

/-- A numeral denotes its number, and behind a minus sign the opposite of it. -/
theorem textValue_signed (h : IsNumeral digits q cs) (negative : Bool) :
  textValue (signed negative cs) = if negative then -q else q
  := by
  have hvalue : unsignedValue cs = q := by
    rw [IsNumeral] at h
    split at h
    · apply h.unsignedValue_eq
    · apply h.unsignedValue_eq
  cases negative with
  | true =>
      rw [signed, if_pos rfl, if_pos rfl, textValue, hvalue]
  | false =>
      rw [signed, if_neg Bool.false_ne_true, if_neg Bool.false_ne_true,
        textValue_of_isDigit h.exists_cons, hvalue]

example : textValue ['-', '1', '.', '5', 'e', '+', '0', '2'] = -150 := by decide +kernel

end IsNumeral

theorem checkPrecision_of_le {places : Nat} (h : places ≤ maxPrecision) :
  checkPrecision places = .ok ()
  := if_neg (not_lt.mpr h)

theorem checkPrecision_of_lt {places : Nat} (h : maxPrecision < places) :
  checkPrecision places = .error .precisionOutOfRange
  := if_pos h

theorem checkPrecision_eq_ok_iff {places : Nat} :
  checkPrecision places = .ok () ↔ places ≤ maxPrecision
  := by
  constructor
  · intro h
    by_contra hlt
    cases h.symm.trans (checkPrecision_of_lt (not_le.mp hlt))
  · apply checkPrecision_of_le

/-- A precision that is checked first must be in range for a result. -/
theorem checkPrecision_bind_eq_ok {places : Nat} {next : Except FormatFault (List Char)}
    {cs : List Char} :
  (do checkPrecision places; next) = .ok cs ↔ places ≤ maxPrecision ∧ next = .ok cs
  := by
  rw [checkPrecision]
  split
  · rename_i hrange
    constructor
    · rintro ⟨⟩
    · rintro ⟨hle, -⟩
      cases not_lt.mpr hle hrange
  · rename_i hrange
    exact ⟨fun h => ⟨not_lt.mp hrange, h⟩, fun h => h.2⟩

/-- The digits of the mantissa, and the exponent behind them. -/
theorem isScientific_mantissaText (hlow : 10 ^ (digits - 1) ≤ n) (hhigh : n < 10 ^ digits)
    (hdigits : 0 < digits) :
  IsScientific (n * 10 ^ (e + 1 - digits)) e (trimFraction (mantissaText digits n) ++ exponentText e)
  := by
  obtain ⟨k, rfl⟩ := Nat.exists_eq_succ_of_ne_zero hdigits.ne'
  have hten : (0 : ℚ) < 10 := by norm_num
  rw [Nat.succ_sub_one] at hlow
  have hpow := Nat.pow_pos (n := k) (show 0 < 10 by decide)
  have hfirst : padded 1 (n / 10 ^ k) = plain (n / 10 ^ k) := by
    have hdigit : n / 10 ^ k < 10 := by
      apply (Nat.div_lt_iff_lt_mul hpow).mpr
      rwa [Nat.pow_succ'] at hhigh
    rw [plain, digitCount_eq, Nat.log_of_lt hdigit]
  have hmantissa : mantissaText (k + 1) n
      = pointed (plain (n / 10 ^ k)) (padded k (n % 10 ^ k)) := by
    rw [← hfirst]
    rfl
  use n * 10 ^ (-(k : ℤ)), trimFraction (mantissaText (k + 1) n),
    padded (max 2 (digitCount e.natAbs)) e.natAbs
  refine ⟨?_, ?_, ?_, ?_, isExponent_padded e, rfl⟩
  · rw [hmantissa]
    apply isPlain_trimmed
  · rw [zpow_neg, ← div_eq_mul_inv, zpow_natCast, one_le_div (pow_pos hten k)]
    exact_mod_cast hlow
  · rw [zpow_neg, ← div_eq_mul_inv, zpow_natCast, div_lt_iff₀ (pow_pos hten k), ← pow_succ']
    exact_mod_cast hhigh
  · rw [mul_assoc, ← zpow_add₀ hten.ne']
    congr 2
    push_cast
    ring

/-- The number rounded to as many places as its significant digits reach. -/
theorem isPlain_fixedText (h : Rounded digits r.toRat n e) (he : e < digits) :
  IsPlain (n * 10 ^ (e + 1 - digits)) (trimFraction (fixedText (digits - 1 - e).toNat r))
  := by
  have hplaces : (((digits : ℤ) - 1 - e).toNat : ℤ) = digits - 1 - e := by omega
  have hnearest : (r.scale10 (digits - 1 - e).toNat).nearest = n := by
    apply Int.natCast_inj.mp
    rw [Ratio.nearest_eq, Ratio.toRat_scale10, hplaces, h.halfEven_eq]
  have hexponent : e + 1 - digits = -(((digits : ℤ) - 1 - e).toNat : ℤ) := by omega
  rw [fixedText, hnearest, hexponent]
  apply isPlain_trimmed

/-- The text of a positive ratio is a numeral of the number rounded to significant digits. -/
theorem positiveText_rounded {cs : List Char} (hdigits : 0 < digits) (hr : 0 < r.num)
    (h : positiveText digits r = .ok cs) :
  IsNumeral digits (roundedTo digits r.toRat) cs
  := by
  have hrounded := rounded_roundSignificant hdigits hr
  rw [positiveText, checkPrecision_bind_eq_ok] at h
  obtain ⟨-, h⟩ := h
  generalize roundSignificant digits r = ne at h hrounded
  obtain ⟨n, e⟩ := ne
  rw [IsNumeral, hrounded.log_eq hdigits, hrounded.roundedTo_eq]
  simp only at h hrounded ⊢
  split at h
  · rename_i hscientific
    rw [if_neg (by omega)]
    cases h
    apply isScientific_mantissaText hrounded.pow_le hrounded.lt_pow hdigits
  · rename_i hplain
    rw [if_pos (by omega)]
    rw [checkPrecision_bind_eq_ok] at h
    obtain ⟨-, h⟩ := h
    cases h
    apply isPlain_fixedText hrounded (by omega)

/-- A number of digits is too large, on its own or together with the places before the first digit of
a number below one. -/
def Refused (digits : Nat) (e : ℤ) : Prop :=
  maxPrecision + 1 < digits ∨ (-4 ≤ e ∧ e < 0 ∧ maxPrecision < digits - 1 - e)

theorem positiveText_of_refused (hdigits : 0 < digits) (hr : 0 < r.num)
    (h : Refused digits (Int.log 10 (roundedTo digits r.toRat))) :
  positiveText digits r = .error .precisionOutOfRange
  := by
  rw [(rounded_roundSignificant hdigits hr).log_eq hdigits] at h
  obtain hlarge | hsmall := lt_or_ge maxPrecision (digits - 1)
  · rw [positiveText, checkPrecision_of_lt hlarge]
    rfl
  · obtain hrange | ⟨hleast, hneg, hplaces⟩ := h
    · omega
    · have hpositional : ¬((roundSignificant digits r).2 < -4
          ∨ (digits : ℤ) ≤ (roundSignificant digits r).2) := by omega
      rw [positiveText, checkPrecision_of_le hsmall]
      simp only [if_neg hpositional]
      rw [checkPrecision_of_lt (by omega)]
      rfl

theorem positiveText_of_not_refused (hdigits : 0 < digits) (hr : 0 < r.num)
    (h : ¬Refused digits (Int.log 10 (roundedTo digits r.toRat))) :
  ∃ cs, positiveText digits r = .ok cs
  := by
  rw [(rounded_roundSignificant hdigits hr).log_eq hdigits, Refused] at h
  rw [positiveText, checkPrecision_of_le (by omega)]
  by_cases hscientific : (roundSignificant digits r).2 < -4
      ∨ (digits : ℤ) ≤ (roundSignificant digits r).2
  · simp only [if_pos hscientific]
    exact ⟨_, rfl⟩
  · simp only [if_neg hscientific]
    rw [checkPrecision_of_le (by omega)]
    exact ⟨_, rfl⟩

/-- The text of a positive ratio depends on the rounded number only. -/
theorem positiveText_congr {s : Ratio} (hdigits : 0 < digits) (hr : 0 < r.num) (hs : 0 < s.num)
    (h : roundedTo digits r.toRat = roundedTo digits s.toRat) :
  positiveText digits r = positiveText digits s
  := by
  by_cases hrefused : Refused digits (Int.log 10 (roundedTo digits r.toRat))
  · rw [positiveText_of_refused hdigits hr hrefused]
    rw [h] at hrefused
    rw [positiveText_of_refused hdigits hs hrefused]
  · obtain ⟨cs, hcs⟩ := positiveText_of_not_refused hdigits hr hrefused
    rw [h] at hrefused
    obtain ⟨ds, hds⟩ := positiveText_of_not_refused hdigits hs hrefused
    have hnumeral := positiveText_rounded hdigits hr hcs
    rw [h] at hnumeral
    rw [hcs, hds, hnumeral.unique (positiveText_rounded hdigits hs hds)]

end RenderKernel.Significant

namespace RenderKernel.Binary

open Decimal Significant

variable {f : Format} {x : Binary f} {digits : Nat} {cs : List Char}

/-- The text of a number with at most `digits` significant digits; none counts as one. -/
def significantText (digits : Nat) (x : Binary f) : Except FormatFault (List Char) :=
  if x.isNaN then return ['n', 'a', 'n']
  else if x.isInfinite then return signed x.negative ['i', 'n', 'f']
  else if x.isZero then return signed x.negative ['0']
  else return signed x.negative (← positiveText (max digits 1) x.ratio)

/-- The text of a finite number other than zero is that of its absolute value behind a sign. -/
theorem significantText_of_ne_zero (hfinite : x.isFinite = true) (hzero : x.isZero = false) :
  x.significantText digits = do return signed x.negative (← positiveText (max digits 1) x.ratio)
  := by
  obtain ⟨hnan, hinfinite⟩ := x.isFinite_iff.mp hfinite
  rw [significantText, hnan, hinfinite, hzero]
  rfl

/-- The text of a finite number other than zero is the numeral of its absolute value rounded to the
significant digits asked for, behind a minus sign if the number is negative, and denotes the rounded
number with its sign. -/
theorem significantText_denotes (hfinite : x.isFinite = true) (hzero : x.isZero = false)
    (h : x.significantText digits = .ok cs) :
  (∃ numeral, IsNumeral (max digits 1) (roundedTo (max digits 1) |x.toRat|) numeral
      ∧ cs = signed (x.toRat < 0) numeral)
    ∧ textValue cs = if x.toRat < 0 then -roundedTo (max digits 1) |x.toRat|
        else roundedTo (max digits 1) |x.toRat|
  := by
  have hmagnitude : x.magnitude ≠ 0 := ne_of_beq_false hzero
  have hsign : decide (x.toRat < 0) = x.negative := by
    rw [Bool.eq_iff_iff, decide_eq_true_eq, x.toRat_neg_iff hmagnitude]
  rw [significantText_of_ne_zero hfinite hzero] at h
  cases hpositive : positiveText (max digits 1) x.ratio with
  | error fault =>
      rw [hpositive] at h
      cases h
  | ok numeral =>
      rw [hpositive] at h
      cases h
      have hnumeral : IsNumeral (max digits 1) (roundedTo (max digits 1) |x.toRat|) numeral := by
        rw [x.abs_toRat]
        apply positiveText_rounded (Nat.le_max_right _ _) (x.num_ratio_pos_iff.mpr hmagnitude)
          hpositive
      constructor
      · use numeral, hnumeral
        rw [hsign]
      · rw [hnumeral.textValue_signed]
        simp only [x.toRat_neg_iff hmagnitude]

end RenderKernel.Binary
