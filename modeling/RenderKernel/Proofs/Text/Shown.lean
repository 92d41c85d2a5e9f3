import RenderKernel.Proofs.Number.Integer
import RenderKernel.Proofs.Text.Significant
import RenderKernel.Text.Shown

/-!
# The detour through the scientific text

A number of 64 bits is shown by its text with significant digits (`Binary.shownText_eq`), although it
is written twice and its exponent is read back from the first text.  That text is split at its only
letter; its exponent is an integer of 32 bits with a sign, since every finite number has a small one;
the number of digits is such an integer because greater ones have been refused; and the number of
places is neither out of range nor negative.

The text denotes the number rounded to its significant digits (`Binary.shownText_denotes`).

What is refused is a precision: that of the first text, or that of the second one for a number below
one with nearly as many digits as can be asked for (`Binary.shownText_refused_iff`).
-/

namespace RenderKernel

open Decimal Significant

/-! ### Integers as text -/

namespace Bounded

variable {k : IntegerKind} {n : ℤ}

/-- The digits of the absolute value of an integer spell it behind its sign. -/
theorem ofDigits?_plain (hleast : k.least ≤ n) (hgreatest : n ≤ k.greatest) :
  (ofDigits? (n < 0) (plain n.natAbs) : Option (Bounded k)) = some ⟨n, hleast, hgreatest⟩
  := by
  have hempty : (plain n.natAbs).isEmpty = false := List.isEmpty_eq_false_iff.mpr (plain_ne_nil _)
  have hdigits : (plain n.natAbs).all Char.isDigit = true :=
    List.all_eq_true.mpr (digits_plain n.natAbs)
  have hvalue : (if decide (n < 0) then -(ofDigits (plain n.natAbs) : ℤ)
      else ofDigits (plain n.natAbs)) = n := by
    rw [ofDigits_plain]
    split
    · rename_i hneg
      have := of_decide_eq_true hneg
      omega
    · rename_i hnonneg
      have := of_decide_eq_false (Bool.eq_false_of_not_eq_true hnonneg)
      omega
  rw [ofDigits?, hempty, hdigits, hvalue]
  apply ofInt?_of_bounds

/-- The digits of an integer behind its sign are read as the integer. -/
theorem read?_signed (hsigned : k.signed = true) (hleast : k.least ≤ n) (hgreatest : n ≤ k.greatest) :
  (read? (signed (n < 0) (plain n.natAbs)) : Option (Bounded k)) = some ⟨n, hleast, hgreatest⟩
  := by
  rw [← ofDigits?_plain hleast hgreatest]
  cases decide (n < 0) with
  | true =>
      rw [signed, if_pos rfl, read?, if_pos hsigned]
  | false =>
      obtain ⟨c, ds, hc, hplain⟩ := exists_cons_pointed (digits_plain n.natAbs) (plain_ne_nil _) []
      rw [pointed_nil] at hplain
      rw [signed, if_neg Bool.false_ne_true, hplain, read?]
      · rintro ds' ⟨⟩
        cases hc
      · rintro ds' ⟨⟩
        cases hc

end Bounded

/-! ### The first text -/

namespace Significant

variable {digits : Nat}

theorem trimFraction_signed (negative : Bool) (cs : List Char) :
  trimFraction (signed negative cs) = signed negative (trimFraction cs)
  := by
  cases negative with
  | true => exact trimFraction_minus cs
  | false => rfl

theorem signed_append (negative : Bool) (cs ds : List Char) :
  signed negative (cs ++ ds) = signed negative cs ++ ds
  := by
  cases negative with
  | true => rfl
  | false => rfl

/-- A text is split at a character that does not occur before. -/
theorem splitAtFirst_append {c : Char} {cs : List Char} (h : c ∉ cs) (ds : List Char) :
  splitAtFirst c (cs ++ c :: ds) = some (cs, ds)
  := by
  obtain ⟨htake, hdrop⟩ := takeWhile_ne h ds
  have hcontains : (cs ++ c :: ds).contains c = true := by
    rw [List.contains_iff_mem]
    apply List.mem_append_right _ List.mem_cons_self
  rw [splitAtFirst, if_pos hcontains, htake, hdrop, List.drop_one, List.tail_cons]

theorem e_not_mem_mantissaText (negative : Bool) (digits n : Nat) :
  'e' ∉ signed negative (mantissaText digits n)
  := by
  have hmantissa : 'e' ∉ mantissaText digits n :=
    e_not_mem_pointed (digits_padded _ _) (digits_padded _ _)
  cases negative with
  | true =>
      rw [signed, if_pos rfl, List.mem_cons]
      rintro (hminus | hmem)
      · cases hminus
      · apply hmantissa hmem
  | false => exact hmantissa

/-- The first text falls into a mantissa and the digits of an exponent behind its sign. -/
theorem splitAtFirst_scientificText (negative : Bool) (hdigits : 0 < digits) (r : Ratio) :
  splitAtFirst 'e' (signed negative (scientificText (digits - 1) r))
    = some (signed negative (mantissaText digits (roundSignificant digits r).1),
        signed ((roundSignificant digits r).2 < 0) (plain (roundSignificant digits r).2.natAbs))
  := by
  rw [scientificText, Nat.sub_add_cancel hdigits, signed_append,
    splitAtFirst_append (e_not_mem_mantissaText _ _ _)]

/-- The exponent of the first text is read if it is an integer of 32 bits. -/
theorem mantissaAndExponent_scientificText (negative : Bool) (hdigits : 0 < digits) (r : Ratio)
    (hleast : IntegerKind.signed32.least ≤ (roundSignificant digits r).2)
    (hgreatest : (roundSignificant digits r).2 ≤ IntegerKind.signed32.greatest) :
  mantissaAndExponent (signed negative (scientificText (digits - 1) r))
    = (signed negative (mantissaText digits (roundSignificant digits r).1),
        ⟨(roundSignificant digits r).2, hleast, hgreatest⟩)
  := by
  rw [mantissaAndExponent, splitAtFirst_scientificText negative hdigits]
  simp only
  rw [Bounded.read?_signed rfl hleast hgreatest, Option.getD_some]

end Significant

/-! ### Both texts -/

namespace Binary

variable {x : Binary .double} {digits : Nat} {e : ℤ}

/-- The exponent of a number of 64 bits is small, and stays so when the number is rounded. -/
theorem exponent_bounds (hfinite : x.isFinite = true) (hzero : x.isZero = false)
    (hdigits : 0 < digits) :
  -1075 ≤ (roundSignificant digits x.ratio).2 ∧ (roundSignificant digits x.ratio).2 ≤ 1024
  := by
  have hmagnitude : x.magnitude ≠ 0 := ne_of_beq_false hzero
  have hr := x.num_ratio_pos_iff.mpr hmagnitude
  obtain ⟨hleast, hgreatest⟩ := x.log_ratio_bounds hfinite hmagnitude
  obtain ⟨hlow, hhigh⟩ := log_roundedTo_bounds hdigits (Ratio.toRat_pos_iff.mpr hr)
  rw [(rounded_roundSignificant hdigits hr).log_eq hdigits] at hlow hhigh
  have hdouble : Format.double.leastExponent = -1074 := by decide
  have hrange : 2 ^ (Format.double.exponentBits - 1) = 1024 := by decide
  rw [hdouble] at hleast
  rw [hrange] at hgreatest
  omega

/-- Numbers of digits that have passed the first check are kept as integers of 32 bits. -/
theorem val_wrap (hdigits : digits ≤ 65536) :
  (Bounded.wrap digits : Bounded .signed32).val = digits
  := by
  obtain ⟨hleast, hgreatest⟩ := IntegerKind.bounds_signed32
  rw [Bounded.wrap_of_bounds IntegerKind.patterns_signed32 (by omega) (by omega)]

/-- The number of places is found within 32 bits. -/
theorem placesBehind_eq (hdigits : digits ≤ 65536) (hlow : -1075 ≤ e) (hhigh : e ≤ 1024)
    (hleast : IntegerKind.signed32.least ≤ e) (hgreatest : e ≤ IntegerKind.signed32.greatest) :
  ∃ places : Bounded .signed32,
    placesBehind digits ⟨e, hleast, hgreatest⟩ = .ok places ∧ places.val = digits - 1 - e
  := by
  obtain ⟨hbelow, habove⟩ := IntegerKind.bounds_signed32
  have hone : (Bounded.wrap 1 : Bounded .signed32).val = 1 := by decide
  have hdigit := val_wrap hdigits
  refine ⟨⟨digits - 1 - e, by omega, by omega⟩, ?_, rfl⟩
  have hfirst : IntegerKind.signed32.least ≤ (digits : ℤ) - 1
      ∧ (digits : ℤ) - 1 ≤ IntegerKind.signed32.greatest := by omega
  rw [placesBehind, Checked.ok_sub_ok, hdigit, hone,
    Bounded.fit_of_bounds .subtract hfirst.1 hfirst.2, Checked.ok_sub_ok]
  apply Bounded.fit_of_bounds

/-- The second text is that of the absolute value behind the sign.  In positional notation the exponent
is below the digits, so that the number of places is not negative and stays as it is. -/
theorem shownText_of_ne_zero (hfinite : x.isFinite = true) (hzero : x.isZero = false) :
  x.shownText digits = do return signed x.negative (← positiveText (max digits 1) x.ratio)
  := by
  have hdigits : 0 < max digits 1 := Nat.le_max_right _ _
  obtain ⟨hnan, hinfinite⟩ := x.isFinite_iff.mp hfinite
  rw [shownText, hnan, hinfinite, hzero]
  simp only [Bool.false_eq_true, if_false]
  generalize max digits 1 = digits at hdigits
  obtain hlarge | hsmall := lt_or_ge maxPrecision (digits - 1)
  · rw [positiveText, checkPrecision_of_lt hlarge]
    rfl
  · obtain ⟨hlow, hhigh⟩ := exponent_bounds hfinite hzero hdigits
    obtain ⟨hbelow, habove⟩ := IntegerKind.bounds_signed32
    have hrange : digits ≤ 65536 := Nat.le_add_of_sub_le hsmall
    have hleast : IntegerKind.signed32.least ≤ (roundSignificant digits x.ratio).2 := by omega
    have hgreatest : (roundSignificant digits x.ratio).2 ≤ IntegerKind.signed32.greatest := by omega
    obtain ⟨places, hplaces, hvalue⟩ := placesBehind_eq hrange hlow hhigh hleast hgreatest
    rw [positiveText, checkPrecision_of_le hsmall,
      mantissaAndExponent_scientificText x.negative hdigits x.ratio hleast hgreatest]
    simp only [val_wrap hrange, hplaces, trimFraction_signed, ← signed_append]
    by_cases hscientific : (roundSignificant digits x.ratio).2 < -4
        ∨ (digits : ℤ) ≤ (roundSignificant digits x.ratio).2
    · simp only [if_pos hscientific]
      rfl
    · have hclamp : max places.val 0 = digits - 1 - (roundSignificant digits x.ratio).2 := by omega
      simp only [if_neg hscientific]
      change (do
        checkPrecision (max places.val 0).toNat
        return signed x.negative (trimFraction (fixedText (max places.val 0).toNat x.ratio))) = _
      rw [hclamp]
      cases checkPrecision (digits - 1 - (roundSignificant digits x.ratio).2).toNat with
      | error fault => rfl
      | ok passed => rfl

/-- A number of 64 bits is shown by its text with significant digits. -/
theorem shownText_eq (digits : Nat) (x : Binary .double) :
  x.shownText digits = x.significantText digits
  := by
  cases hnan : x.isNaN with
  | true =>
      rw [shownText, significantText, hnan]
      rfl
  | false =>
      cases hinfinite : x.isInfinite with
      | true =>
          rw [shownText, significantText, hnan, hinfinite]
          rfl
      | false =>
          cases hzero : x.isZero with
          | true =>
              rw [shownText, significantText, hnan, hinfinite, hzero]
              rfl
          | false =>
              have hfinite := x.isFinite_iff.mpr ⟨hnan, hinfinite⟩
              rw [shownText_of_ne_zero hfinite hzero, significantText_of_ne_zero hfinite hzero]

/-- A finite number other than zero is shown as the numeral of its absolute value rounded to the
significant digits asked for, at least one, behind a minus sign if it is negative.  The text denotes
the rounded number with its sign, although a plain numeral has been rounded twice. -/
theorem shownText_denotes {cs : List Char} (hfinite : x.isFinite = true) (hzero : x.isZero = false)
    (h : x.shownText digits = .ok cs) :
  (∃ numeral, IsNumeral (max digits 1) (roundedTo (max digits 1) |x.toRat|) numeral
      ∧ cs = signed (x.toRat < 0) numeral)
    ∧ textValue cs = if x.toRat < 0 then -roundedTo (max digits 1) |x.toRat|
        else roundedTo (max digits 1) |x.toRat|
  := by
  rw [shownText_eq] at h
  apply significantText_denotes hfinite hzero h

/-- Rounding carries into the next power of ten, which the plain notation does not reach any more. -/
theorem shownText_denotes_carried :
  let x : Binary .double := ofBits 0xc0c387d99999999a
  x.isFinite = true ∧ x.isZero = false ∧ x.shownText 4 = .ok ['-', '1', 'e', '+', '0', '4']
    ∧ (∃ numeral, IsNumeral (max 4 1) (roundedTo (max 4 1) |x.toRat|) numeral
      ∧ ['-', '1', 'e', '+', '0', '4'] = signed (x.toRat < 0) numeral)
    ∧ textValue ['-', '1', 'e', '+', '0', '4']
      = if x.toRat < 0 then -roundedTo (max 4 1) |x.toRat| else roundedTo (max 4 1) |x.toRat|
  := by
  intro x
  have hfinite : x.isFinite = true := by decide +kernel
  have hzero : x.isZero = false := by decide +kernel
  have htext : x.shownText 4 = .ok ['-', '1', 'e', '+', '0', '4'] := by decide +kernel
  exact ⟨hfinite, hzero, htext, shownText_denotes hfinite hzero htext⟩

/-- The text of a number that is not positive or negative needs no digits. -/
theorem exists_shownText (h : ¬(x.isFinite = true ∧ x.isZero = false)) :
  ∃ cs, x.shownText digits = .ok cs
  := by
  rw [x.isFinite_iff] at h
  rw [shownText]
  cases hnan : x.isNaN with
  | true => exact ⟨_, rfl⟩
  | false =>
      cases hinfinite : x.isInfinite with
      | true => exact ⟨_, rfl⟩
      | false =>
          cases hzero : x.isZero with
          | true => exact ⟨_, rfl⟩
          | false => exact absurd ⟨⟨hnan, hinfinite⟩, hzero⟩ h

/-- The decimal exponent of a number that is rounded to the digits with which it is shown. -/
def shownExponent (digits : Nat) (x : Binary .double) : ℤ :=
  Int.log 10 (roundedTo (max digits 1) |x.toRat|)

theorem roundSignificant_ratio (hzero : x.isZero = false) :
  (roundSignificant (max digits 1) x.ratio).2 = x.shownExponent digits
  := by
  have hr := x.num_ratio_pos_iff.mpr (ne_of_beq_false hzero)
  have hdigits : 0 < max digits 1 := Nat.le_max_right _ _
  rw [shownExponent, x.abs_toRat, (rounded_roundSignificant hdigits hr).log_eq hdigits]

theorem shownText_of_refused (hfinite : x.isFinite = true) (hzero : x.isZero = false)
    (h : Refused (max digits 1) (x.shownExponent digits)) :
  x.shownText digits = .error .precisionOutOfRange
  := by
  have hr := x.num_ratio_pos_iff.mpr (ne_of_beq_false hzero)
  rw [shownExponent, x.abs_toRat] at h
  rw [shownText_of_ne_zero hfinite hzero, positiveText_of_refused (Nat.le_max_right _ _) hr h]
  rfl

theorem exists_shownText_of_not_refused (hfinite : x.isFinite = true) (hzero : x.isZero = false)
    (h : ¬Refused (max digits 1) (x.shownExponent digits)) :
  ∃ cs, x.shownText digits = .ok cs
  := by
  have hr := x.num_ratio_pos_iff.mpr (ne_of_beq_false hzero)
  rw [shownExponent, x.abs_toRat] at h
  obtain ⟨cs, hcs⟩ := positiveText_of_not_refused (Nat.le_max_right _ _) hr h
  rw [shownText_of_ne_zero hfinite hzero, hcs]
  exact ⟨_, rfl⟩

/-- A number is shown or the precision is refused, and it is refused exactly if it is out of range. -/
theorem shownText_cases (digits : Nat) (x : Binary .double) :
  (∃ cs, x.shownText digits = .ok cs
      ∧ ¬(x.isFinite = true ∧ x.isZero = false ∧ Refused (max digits 1) (x.shownExponent digits)))
    ∨ (x.shownText digits = .error .precisionOutOfRange
      ∧ x.isFinite = true ∧ x.isZero = false ∧ Refused (max digits 1) (x.shownExponent digits))
  := by
  by_cases hnumber : x.isFinite = true ∧ x.isZero = false
  · by_cases hrefused : Refused (max digits 1) (x.shownExponent digits)
    · exact .inr ⟨shownText_of_refused hnumber.1 hnumber.2 hrefused, hnumber.1, hnumber.2, hrefused⟩
    · obtain ⟨cs, hcs⟩ := exists_shownText_of_not_refused hnumber.1 hnumber.2 hrefused
      exact .inl ⟨cs, hcs, fun h => hrefused h.2.2⟩
  · have htext : ∃ cs, x.shownText digits = .ok cs := exists_shownText hnumber
    obtain ⟨cs, hcs⟩ := htext
    exact .inl ⟨cs, hcs, fun h => hnumber ⟨h.1, h.2.1⟩⟩

theorem not_refused_of_le (h : digits ≤ 65532) (e : ℤ) :
  ¬Refused (max digits 1) e
  := by
  rw [Refused, maxPrecision]
  omega

/-- Few enough digits are shown. -/
theorem exists_shownText_of_le (h : digits ≤ 65532) (x : Binary .double) :
  ∃ cs, x.shownText digits = .ok cs
  := by
  obtain ⟨cs, hcs, -⟩ | ⟨-, -, -, hrefused⟩ := shownText_cases digits x
  · exact ⟨cs, hcs⟩
  · exact absurd hrefused (not_refused_of_le h _)

/-- A precision is refused exactly for finite numbers other than zero, if there are too many digits,
or too many places for the digits of a number below one that is written positionally; there is no
other fault.  Once the first text has been written, its exponent is read, and the arithmetic on it
neither overflows nor loses digits nor finds a negative number of places. -/
theorem shownText_refused_iff (digits : Nat) (x : Binary .double) :
  let P := max digits 1
  let X := x.shownExponent digits
  ((∃ fault, x.shownText digits = .error fault)
      ↔ x.isFinite = true ∧ x.isZero = false
        ∧ (65536 < P ∨ (-4 ≤ X ∧ X < 0 ∧ 65535 < (P : ℤ) - 1 - X)))
    ∧ (∀ fault, x.shownText digits = .error fault → fault = .precisionOutOfRange)
    ∧ (digits ≤ 65532 → ∃ cs, x.shownText digits = .ok cs)
    ∧ (x.isFinite = true → x.isZero = false → checkPrecision (P - 1) = .ok () →
        ∃ mantissa ds exponent places,
          splitAtFirst 'e' (signed x.negative (scientificText (P - 1) x.ratio)) = some (mantissa, ds)
            ∧ Bounded.read? ds = some exponent ∧ exponent.val = X
            ∧ (Bounded.wrap P : Bounded .signed32).val = P
            ∧ placesBehind P exponent = .ok places ∧ places.val = (P : ℤ) - 1 - X
            ∧ (¬(X < -4 ∨ (P : ℤ) ≤ X) → max places.val 0 = places.val))
  := by
  intro P X
  have hP : 0 < P := Nat.le_max_right _ _
  refine ⟨⟨?_, ?_⟩, ?_, ?_, ?_⟩
  · rintro ⟨fault, hfault⟩
    obtain ⟨cs, hcs, -⟩ | ⟨-, hrefused⟩ := shownText_cases digits x
    · cases hfault.symm.trans hcs
    · exact hrefused
  · rintro ⟨hfinite, hzero, hrefused⟩
    exact ⟨_, shownText_of_refused hfinite hzero hrefused⟩
  · intro fault hfault
    obtain ⟨cs, hcs, -⟩ | ⟨herror, -⟩ := shownText_cases digits x
    · cases hfault.symm.trans hcs
    · cases hfault.symm.trans herror
      rfl
  · intro hsmall
    apply exists_shownText_of_le hsmall
  · intro hfinite hzero hpassed
    have hrange : P ≤ 65536 := by
      rw [checkPrecision_eq_ok_iff] at hpassed
      exact Nat.le_add_of_sub_le hpassed
    obtain ⟨hlow, hhigh⟩ := exponent_bounds hfinite hzero hP
    obtain ⟨hbelow, habove⟩ := IntegerKind.bounds_signed32
    rw [splitAtFirst_scientificText x.negative hP]
    rw [roundSignificant_ratio hzero] at hlow hhigh ⊢
    have hleast : IntegerKind.signed32.least ≤ X := by omega
    have hgreatest : X ≤ IntegerKind.signed32.greatest := by omega
    obtain ⟨places, hplaces, hvalue⟩ := placesBehind_eq hrange hlow hhigh hleast hgreatest
    refine ⟨_, _, ⟨X, hleast, hgreatest⟩, places, rfl, Bounded.read?_signed rfl hleast hgreatest, rfl,
      val_wrap hrange, hplaces, hvalue, ?_⟩
    intro hplain
    omega

/-- So many digits are not too many for the first text, but for the second one, in which zeros stand
before the number. -/
theorem shownText_refused_small :
  let x : Binary .double := ofBits 0x3f20000000000000
  x.isFinite = true ∧ x.isZero = false ∧ checkPrecision (65534 - 1) = .ok ()
    ∧ ∃ fault, x.shownText 65534 = .error fault
  := by
  intro x
  have hfinite : x.isFinite = true := by decide +kernel
  have hzero : x.isZero = false := by decide +kernel
  have hnum : 0 < x.ratio.num := by decide +kernel
  have hlog : Int.log 10 |x.toRat| = -4 := by
    rw [x.abs_toRat, ← Ratio.floorLog10_eq hnum]
    decide +kernel
  have hpos : 0 < |x.toRat| := by
    rw [x.abs_toRat]
    exact Ratio.toRat_pos_iff.mpr hnum
  obtain ⟨hlow, hhigh⟩ := log_roundedTo_bounds (show 0 < max 65534 1 by decide) hpos
  rw [hlog] at hlow hhigh
  refine ⟨hfinite, hzero, by decide, (shownText_refused_iff 65534 x).1.mpr ⟨hfinite, hzero, ?_⟩⟩
  rw [shownExponent]
  exact .inr (by omega)

end Binary

end RenderKernel
