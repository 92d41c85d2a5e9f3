import RenderKernel.Proofs.Decimal.Precision
import RenderKernel.Proofs.Text.Value
import RenderKernel.Text.Legible

/-!
# Reading what has been shown

A text that shows a number is read as the number of a format that is nearest to what the text denotes
(`Binary.reading`): no number is nearer (`reading_dist_le`), and it is even if another one is as near
(`reading_even`).

With enough digits, reading gives back the number that was shown: the rounding of the text moves the
number by less than half the way to the numbers beside it (`reading_of_lossless`).

With few digits, the number that is read is shown by the same text again: reading moves the rounded
number by less than half a unit of its last digit, and a power of ten by less than half a unit of the
finer digits below it (`roundedTo_nearest`).  This needs a leading bit in the last place, so the number
that was shown must not be subnormal.
-/

namespace RenderKernel.Binary

open Decimal Significant

variable {f g : Format} {x : Binary f} {y : Binary g} {digits : Nat} {cs : List Char} {r : Ratio}

/-! ### The number that is read -/

/-- The number of a format that is nearest to what a text denotes, a tie going to the even one.  Its
sign is that of the text, also if it is zero. -/
def reading (cs : List Char) : Binary f :=
  nearest (cs.head? == some '-') (.ofAbs (textValue cs))

theorem unsignedValue_nonneg (cs : List Char) :
  0 ≤ unsignedValue cs
  := by
  apply mul_nonneg
  · apply mul_nonneg (Nat.cast_nonneg _) (zpow_pos ten_pos _).le
  · apply (zpow_pos ten_pos _).le

/-- What a text denotes is not positive behind a minus sign, and not negative otherwise. -/
theorem textValue_eq_signed (cs : List Char) :
  textValue cs = if cs.head? == some '-' then -|textValue cs| else |textValue cs|
  := by
  rw [textValue.eq_def]
  split
  · rename_i ds
    rw [List.head?_cons, if_pos (beq_self_eq_true _), abs_neg, abs_of_nonneg (unsignedValue_nonneg ds)]
  · rename_i hminus
    have hhead : (cs.head? == some '-') = false := by
      apply beq_eq_false_iff_ne.mpr
      intro hhead
      obtain ⟨ds, rfl⟩ := List.head?_eq_some_iff.mp hhead
      exact hminus ds rfl
    rw [hhead, if_neg Bool.false_ne_true, abs_of_nonneg (unsignedValue_nonneg cs)]

/-- A number with the sign of a text is as far from what the text denotes as their absolute values
are from each other. -/
theorem abs_textValue_sub_toRat (h : x.negative = (cs.head? == some '-')) :
  |textValue cs - x.toRat| = |(|textValue cs|) - x.ratio.toRat|
  := by
  have hvalue := textValue_eq_signed cs
  rw [toRat, h]
  split at hvalue
  · rename_i hminus
    rw [if_pos hminus, hvalue, abs_neg, abs_abs, ← neg_sub', abs_neg]
  · rename_i hplus
    rw [if_neg hplus, hvalue, abs_abs]

/-- With the other sign, a number lies beyond zero. -/
theorem abs_textValue_sub_toRat_of_ne (h : x.negative ≠ (cs.head? == some '-')) :
  |textValue cs - x.toRat| = |textValue cs| + x.ratio.toRat
  := by
  have hvalue := textValue_eq_signed cs
  have hsum : 0 ≤ |textValue cs| + x.ratio.toRat :=
    add_nonneg (abs_nonneg _) x.ratio.toRat_nonneg
  rw [toRat, Bool.eq_not.mpr h]
  cases hminus : cs.head? == some '-' with
  | true =>
      rw [hminus, if_pos rfl] at hvalue
      rw [Bool.not_true, if_neg Bool.false_ne_true]
      nth_rewrite 1 [hvalue]
      rw [← neg_add', abs_neg, abs_of_nonneg hsum]
  | false =>
      rw [hminus, if_neg Bool.false_ne_true] at hvalue
      rw [Bool.not_false, if_pos rfl, sub_neg_eq_add]
      nth_rewrite 1 [hvalue]
      apply abs_of_nonneg hsum

theorem nearest_lt_infinity_of_reading (hread : (reading cs : Binary f).isFinite = true) :
  f.nearest (.ofAbs (textValue cs)) < f.infinity
  := by
  rw [reading, isFinite, magnitude_nearest] at hread
  exact of_decide_eq_true hread

theorem num_ofAbs_pos (h : textValue cs ≠ 0) :
  0 < (Ratio.ofAbs (textValue cs)).num
  := by
  rw [← Ratio.toRat_pos_iff, Ratio.toRat_ofAbs]
  apply abs_pos.mpr h

theorem magnitude_reading_of_zero (h : textValue cs = 0) :
  (reading cs : Binary f).magnitude = 0
  := by
  have hnum : (Ratio.ofAbs (textValue cs)).num = 0 := by
    rw [h]
    rfl
  rw [reading, magnitude_nearest, Format.nearest, if_pos hnum]

/-- No absolute value of the format is nearer to that of what a text denotes than the one that is
read. -/
theorem ratio_reading_dist_le (hread : (reading cs : Binary f).isFinite = true) (y : Binary f) :
  |(|textValue cs|) - (reading cs : Binary f).ratio.toRat| ≤ |(|textValue cs|) - y.ratio.toRat|
  := by
  by_cases hzero : textValue cs = 0
  · have hmagnitude : (reading cs : Binary f).isZero = true :=
      beq_iff_eq.mpr (magnitude_reading_of_zero hzero)
    rw [toRat_ratio_of_isZero hmagnitude, hzero, abs_zero, sub_zero, abs_zero]
    apply abs_nonneg
  · rw [← Ratio.toRat_ofAbs (textValue cs)]
    apply nearest_dist_le (num_ofAbs_pos hzero) (nearest_lt_infinity_of_reading hread)

theorem ratio_dist_le (cs : List Char) (y : Binary f) :
  |(|textValue cs|) - y.ratio.toRat| ≤ |textValue cs - y.toRat|
  := by
  rw [← y.abs_toRat]
  apply abs_abs_sub_abs_le

/-- No number of the format is nearer to what a text denotes than the one that is read. -/
theorem reading_dist_le (hread : (reading cs : Binary f).isFinite = true) (y : Binary f) :
  |textValue cs - (reading cs : Binary f).toRat| ≤ |textValue cs - y.toRat|
  := by
  rw [abs_textValue_sub_toRat rfl]
  apply (ratio_reading_dist_le hread y).trans (ratio_dist_le cs y)

/-- If another number of the format is as near to what a text denotes, the one that is read is even.  The
opposite of a number is never as near, unless both are zero. -/
theorem reading_even (hbits : 0 < f.fractionBits) (hread : (reading cs : Binary f).isFinite = true)
    {y : Binary f} (hne : (reading cs : Binary f).toRat ≠ y.toRat)
    (heq : |textValue cs - (reading cs : Binary f).toRat| = |textValue cs - y.toRat|) :
  (reading cs : Binary f).magnitude % 2 = 0
  := by
  by_cases hzero : textValue cs = 0
  · rw [magnitude_reading_of_zero hzero]
  · have hnear := ratio_reading_dist_le hread y
    have hfar := ratio_dist_le cs y
    rw [← heq, abs_textValue_sub_toRat rfl] at hfar
    by_cases hsame : (reading cs : Binary f).ratio.toRat = y.ratio.toRat
    · have hopposite : y.negative ≠ (cs.head? == some '-') := by
        intro hsign
        apply hne
        rw [toRat, toRat, hsame, hsign]
        rfl
      rw [abs_textValue_sub_toRat rfl, abs_textValue_sub_toRat_of_ne hopposite, hsame] at heq
      have hpos := abs_pos.mpr hzero
      have hnonneg := y.ratio.toRat_nonneg
      have hvalue : y.ratio.toRat = 0 := by
        cases abs_cases (|textValue cs| - y.ratio.toRat) with
        | inl hcase => linarith
        | inr hcase => linarith
      rw [toRat, toRat, hsame, hvalue, neg_zero, ite_self, ite_self] at hne
      exact absurd rfl hne
    · rw [← Ratio.toRat_ofAbs (textValue cs)] at hnear hfar
      rw [reading, magnitude_nearest]
      exact nearest_even (num_ofAbs_pos hzero) (nearest_lt_infinity_of_reading hread) hbits hsame
        (le_antisymm hnear hfar)

/-! ### The text of a number -/

theorem head?_signed (negative : Bool) (h : ∃ c ds, c.isDigit = true ∧ cs = c :: ds) :
  ((signed negative cs).head? == some '-') = negative
  := by
  cases negative with
  | true => rfl
  | false =>
      obtain ⟨c, ds, hc, rfl⟩ := h
      apply beq_eq_false_iff_ne.mpr
      rintro ⟨⟩
      cases hc

/-- The text of a number is read as what is nearest to its rounded absolute value, with its sign. -/
theorem reading_significantText (hfinite : y.isFinite = true)
    (h : y.significantText digits = .ok cs) :
  (reading cs : Binary f)
    = nearest y.negative (.ofAbs (roundedTo (max digits 1) y.ratio.toRat))
  := by
  have habs : |textValue cs| = |roundedTo (max digits 1) y.ratio.toRat| := by
    rw [textValue_significantText hfinite h, shownValue]
    split
    · apply abs_neg
    · rfl
  have hsign : (cs.head? == some '-') = y.negative := by
    obtain ⟨numeral, hnumeral, rfl⟩ := exists_signed hfinite h
    apply head?_signed _ hnumeral
  rw [reading, hsign, nearest, nearest]
  congr 1
  apply Format.nearest_congr
  rw [Ratio.toRat_ofAbs, Ratio.toRat_ofAbs, habs]

/-! ### Enough digits -/

/-- With enough digits, a number is read from its text. -/
theorem reading_of_lossless (hfinite : x.isFinite = true)
    (hdigits : 2 * f.fractions < 10 ^ (digits - 1)) (h : x.significantText digits = .ok cs) :
  reading cs = x
  := by
  have hpos : 0 < digits := by
    have := f.fractions_pos
    by_contra hzero
    rw [Nat.eq_zero_of_not_pos hzero, Nat.zero_sub, Nat.pow_zero] at hdigits
    omega
  rw [reading_significantText hfinite h, Nat.max_eq_left hpos]
  apply nearest_eq_self
  apply nearest_of_lossless hfinite hdigits hpos
  rw [Ratio.toRat_ofAbs, abs_of_nonneg (roundedTo_nonneg hpos x.ratio.toRat_nonneg)]

/-! ### Few digits -/

/-- A number that is not subnormal has a leading bit in the least place or above. -/
theorem fractions_mul_zpow_le (hnormal : f.fractions ≤ x.magnitude) :
  f.fractions * 2 ^ f.leastExponent ≤ x.ratio.toRat
  := by
  have hsignificand : f.fractions ≤ x.significand := by
    have hbiased : x.biasedExponent ≠ 0 := (Nat.div_pos hnormal f.fractions_pos).ne'
    rw [significand, if_neg hbiased]
    apply Nat.le_add_right
  rw [toRat_ratio]
  apply mul_le_mul
  · exact_mod_cast hsignificand
  · apply zpow_le_zpow_right₀ one_le_two x.leastExponent_le_exponent
  · apply (zpow_pos two_pos _).le
  · apply Nat.cast_nonneg

/-- A number is at most half a unit of the last digit above the rounded number. -/
theorem toRat_ratio_le_of_rounded {n : Nat} {e : ℤ} (hdigits : 0 < digits)
    (hpos : 0 < x.ratio.toRat) (h : Rounded digits x.ratio.toRat n e) :
  x.ratio.toRat ≤ (n + 1 / 2) * 10 ^ (e + 1 - digits)
  := by
  have hmove := (abs_le.mp (abs_sub_roundedTo_le digits x.ratio.toRat)).2
  have hlog := (log_roundedTo_bounds hdigits hpos).1
  rw [h.log_eq hdigits] at hlog
  have hunit : (10 : ℚ) ^ (Int.log 10 x.ratio.toRat + 1 - digits) ≤ 10 ^ (e + 1 - digits) :=
    zpow_le_zpow_right₀ (by norm_num) (by omega)
  rw [h.roundedTo_eq] at hmove
  linarith

/-- A rounded number has a leading bit in its last place, or the number that was rounded has one. -/
theorem fractions_mul_lastExponent_le {n : Nat} {e : ℤ} (hnormal : f.fractions ≤ x.magnitude)
    (hdigits : 0 < digits) (h : Rounded digits x.ratio.toRat n e) (hr : 0 < r.num)
    (hvalue : r.toRat = n * 10 ^ (e + 1 - digits)) :
  f.fractions * 2 ^ f.lastExponent r ≤ (n + 1 / 2) * (10 : ℚ) ^ (e + 1 - digits)
  := by
  have hplace := f.lastPlace_lastExponent hr
  have hunit := zpow_pos ten_pos (e + 1 - (digits : ℤ))
  obtain hleast | hleast := hplace.least_le.lt_or_eq
  · have hlead := hplace.le hleast
    rw [hvalue] at hlead
    linarith
  · have hlead := fractions_mul_zpow_le hnormal
    rw [hleast] at hlead
    have hplaces := zpow_pos (two_pos (α := ℚ)) (f.lastExponent r)
    have hpos := (mul_pos f.fractions_cast_pos hplaces).trans_le hlead
    apply hlead.trans (toRat_ratio_le_of_rounded hdigits hpos h)

/-- If the digits are coarser than the bits, what is nearest to a rounded number is rounded to it. -/
theorem roundedTo_nearest {negative : Bool} (hnormal : f.fractions ≤ x.magnitude)
    (hdigits : 0 < digits) (hcoarse : 2 * 10 ^ digits ≤ f.fractions)
    (hr : r.toRat = roundedTo digits x.ratio.toRat) (hfinite : f.nearest r < f.infinity) :
  roundedTo digits (nearest negative r : Binary f).ratio.toRat = roundedTo digits x.ratio.toRat
  := by
  have hx : 0 < x.ratio.num := x.num_ratio_pos_iff.mpr (f.fractions_pos.trans_le hnormal).ne'
  have hrounded := rounded_roundSignificant hdigits hx
  have hnum : 0 < r.num := by
    rw [← Ratio.toRat_pos_iff, hr]
    apply roundedTo_pos hdigits (Ratio.toRat_pos_iff.mpr hx)
  have hmove : |(nearest negative r : Binary f).ratio.toRat - r.toRat| ≤ 2 ^ f.lastExponent r / 2 :=
    abs_sub_nearest_le hnum hfinite
  generalize roundSignificant digits x.ratio = ne at hrounded
  obtain ⟨n, e⟩ := ne
  rw [hrounded.roundedTo_eq] at hr ⊢
  have hbits := fractions_mul_lastExponent_le hnormal hdigits hrounded hnum hr
  rw [hr] at hmove
  have hunit := zpow_pos ten_pos (e + 1 - (digits : ℤ))
  have hplace := zpow_pos (two_pos (α := ℚ)) (f.lastExponent r)
  have hcoarse' : 2 * (10 : ℚ) ^ digits ≤ f.fractions := by exact_mod_cast hcoarse
  have hdecimal := (mul_le_mul_of_nonneg_right hcoarse' hplace.le).trans hbits
  apply roundedTo_of_near hrounded.pow_le hrounded.lt_pow hdigits
  · have hn : (n : ℚ) + 1 ≤ 10 ^ digits := by exact_mod_cast hrounded.lt_pow
    have hhalf : 10 ^ digits * 2 ^ f.lastExponent r
        < 10 ^ digits * ((10 : ℚ) ^ (e + 1 - digits) / 2) := by
      have := mul_le_mul_of_nonneg_right hn hunit.le
      linarith
    have := lt_of_mul_lt_mul_left hhalf (pow_pos ten_pos _).le
    linarith
  · intro hpower
    have hn : (n : ℚ) = 10 ^ (digits - 1) := by exact_mod_cast hpower
    have hone : (1 : ℚ) ≤ 10 ^ (digits - 1) := one_le_pow₀ (by norm_num)
    have hten : (10 : ℚ) ^ digits = 10 ^ (digits - 1) * 10 := by
      rw [← pow_succ, Nat.sub_add_cancel hdigits]
    rw [hn, hten] at hdecimal
    have htenth : (10 : ℚ) ^ (digits - 1) * 2 ^ f.lastExponent r
        < 10 ^ (digits - 1) * (10 ^ (e + 1 - (digits : ℤ)) / 10) := by
      have := mul_le_mul_of_nonneg_right hone hunit.le
      linarith
    have := lt_of_mul_lt_mul_left htenth (pow_pos ten_pos _).le
    linarith

/-- With few digits, the number that is read from a text is shown by this text. -/
theorem significantText_reading (hfinite : x.isFinite = true) (hnormal : f.fractions ≤ x.magnitude)
    (hdigits : 0 < digits) (hcoarse : 2 * 10 ^ digits ≤ f.fractions)
    (h : x.significantText digits = .ok cs) (hread : (reading cs : Binary f).isFinite = true) :
  (reading cs : Binary f).significantText digits = .ok cs
  := by
  rw [← h]
  rw [reading_significantText hfinite h, Nat.max_eq_left hdigits] at hread ⊢
  apply significantText_congr hread hfinite rfl
  rw [Nat.max_eq_left hdigits]
  apply roundedTo_nearest hnormal hdigits hcoarse
  · rw [Ratio.toRat_ofAbs, abs_of_nonneg (roundedTo_nonneg hdigits x.ratio.toRat_nonneg)]
  · rw [isFinite, magnitude_nearest] at hread
    exact of_decide_eq_true hread

/-! ### Numbers of 32 and 64 bits -/

theorem legible_eq (digits : Nat) (x : Binary f) :
  Legible.significantText digits x = (x.convert : Binary .double).shownText digits
  := rfl

/-- A number is shown by its own text, although it is widened first. -/
theorem legible_significantText (digits : Nat) {x : Binary .single} (hfinite : x.isFinite = true) :
  Legible.significantText digits x = x.significantText digits
  := by
  obtain ⟨hwidened, hsign, hvalue⟩ := convert_exact Format.widens_single_double hfinite
  rw [legible_eq, shownText_eq]
  apply significantText_congr hwidened hfinite hsign
  rw [hvalue]

theorem legible_shownText (digits : Nat) {x : Binary .double} (hfinite : x.isFinite = true) :
  Legible.significantText digits x = x.shownText digits
  := by
  rw [legible_eq, convert_self hfinite]

/-- With fifteen digits or fewer, six for the numbers of 32 bits, a number that is not subnormal is shown,
and the number that is read from its text, if it is finite, is shown by this text again. -/
theorem shownText_stable :
  (∀ (x : Binary .double) (digits : Nat), x.isFinite = true → Format.double.fractions ≤ x.magnitude →
      1 ≤ digits → digits ≤ 15 →
      ∃ cs, x.shownText digits = .ok cs
        ∧ ((reading cs : Binary .double).isFinite = true →
          (reading cs : Binary .double).shownText digits = .ok cs))
    ∧ ∀ (x : Binary .single) (digits : Nat), x.isFinite = true →
      Format.single.fractions ≤ x.magnitude → 1 ≤ digits → digits ≤ 6 →
      ∃ cs, Legible.significantText digits x = .ok cs
        ∧ ((reading cs : Binary .single).isFinite = true →
          Legible.significantText digits (reading cs : Binary .single) = .ok cs)
  := by
  constructor
  · intro x digits hfinite hnormal hone hfew
    have hcoarse : 2 * 10 ^ digits ≤ Format.double.fractions :=
      (Nat.mul_le_mul_left 2 (Nat.pow_le_pow_right (by decide) hfew)).trans (by decide)
    obtain ⟨cs, hcs⟩ := exists_shownText_of_le (hfew.trans (by decide)) x
    refine ⟨cs, hcs, fun hread => ?_⟩
    rw [shownText_eq] at hcs ⊢
    apply significantText_reading hfinite hnormal hone hcoarse hcs hread
  · intro x digits hfinite hnormal hone hfew
    have hcoarse : 2 * 10 ^ digits ≤ Format.single.fractions :=
      (Nat.mul_le_mul_left 2 (Nat.pow_le_pow_right (by decide) hfew)).trans (by decide)
    obtain ⟨cs, hcs⟩ := exists_shownText_of_le (hfew.trans (by decide)) x.convert
    rw [← legible_eq] at hcs
    refine ⟨cs, hcs, fun hread => ?_⟩
    rw [legible_significantText digits hfinite] at hcs
    rw [legible_significantText digits hread]
    apply significantText_reading hfinite hnormal hone hcoarse hcs hread

/-- The number above a power of ten that is no number of the format is read as the one below it, from
whose digits on the units are a tenth. -/
theorem shownText_stable_powerOfTen :
  let x : Binary .double := ofBits 0x44b52d02c7e14af7
  let y : Binary .double := ofBits 0x44b52d02c7e14af6
  x.shownText 15 = .ok ['1', 'e', '+', '2', '3'] ∧ reading ['1', 'e', '+', '2', '3'] = y
    ∧ y.ratio.toRat < 10 ^ 23 ∧ y.shownText 15 = .ok ['1', 'e', '+', '2', '3']
  := by
  intro x y
  have hx : x.shownText 15 = .ok ['1', 'e', '+', '2', '3'] := by decide +kernel
  have hy : reading ['1', 'e', '+', '2', '3'] = y := by decide +kernel
  obtain ⟨cs, hcs, hstable⟩ := shownText_stable.1 x 15 (by decide +kernel) (by decide +kernel)
    (by decide) (by decide)
  cases hx.symm.trans hcs
  rw [hy] at hstable
  exact ⟨hx, hy, by decide +kernel, hstable (by decide +kernel)⟩

end RenderKernel.Binary
