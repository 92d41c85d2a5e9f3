import RenderKernel.Decimal.Layout
import RenderKernel.Proofs.Decimal.Literal
import RenderKernel.Proofs.Decimal.Numeral

/-!
# The parts of a text in a layout

A text without a sign that spells a number has `Parts`: digits before a point, digits behind it, and
an exponent, of which only the first must be there.  A layout writes a decimal, positionally or
scientifically, as a text whose parts have its value, and of which a point or an exponent shows that
it is not an integer.
-/

namespace RenderKernel.Decimal

/-- The text is an exponent with its letter, or nothing. -/
inductive IsExponentPart : List Char → Option Int → Prop
  | missing : IsExponentPart [] none
  | unsigned (n : Nat) : IsExponentPart ('e' :: plain n) (some n)
  | plus (n : Nat) : IsExponentPart ('e' :: '+' :: plain n) (some n)
  | minus (n : Nat) : IsExponentPart ('e' :: '-' :: plain n) (some (-n))

/-- The parts of a text that spells a number without a sign. -/
structure Parts where
  whole : List Char
  fraction : List Char
  ending : List Char
  exponent : Option Int
  digits_whole : Digits whole
  whole_ne_nil : whole ≠ []
  leading : whole.head? = some '0' → whole = ['0']
  digits_fraction : Digits fraction
  isExponentPart : IsExponentPart ending exponent

namespace Parts

/-- The text of the parts. -/
def text (p : Parts) : List Char := pointed p.whole p.fraction ++ p.ending

/-- The text of the parts behind a sign. -/
def signedText (negative : Bool) (p : Parts) : List Char :=
  if negative then '-' :: p.text else p.text

/-- The number that the parts spell. -/
def value (p : Parts) : ℚ := pointValue p.whole p.fraction * 10 ^ p.exponent.getD 0

/-- The number that the digits spell without regard to the point, and without the zeros that end the
fraction. -/
def coefficient (p : Parts) : Nat := ofDigits (p.whole ++ withoutZeros p.fraction)

/-- Whether there is neither a point nor an exponent. -/
def integral (p : Parts) : Bool := p.fraction.isEmpty && p.exponent.isNone

/-- The text of the parts begins with a digit. -/
theorem exists_cons (p : Parts) :
  ∃ c cs, c.isDigit = true ∧ p.text = c :: cs
  := by
  obtain ⟨c, cs, hc, hcs⟩ := exists_cons_pointed p.digits_whole p.whole_ne_nil p.fraction
  rw [text, hcs]
  exact ⟨c, cs ++ p.ending, hc, rfl⟩

/-- The literal that the parts spell behind a sign. -/
def literal (negative : Bool) (p : Parts) : Literal :=
  ⟨negative, p.coefficient, p.exponent.getD 0 - (withoutZeros p.fraction).length⟩

/-- Parts have the value of the literal that they spell. -/
theorem value_literal (negative : Bool) (p : Parts) :
  (p.literal negative).value = p.value
  := by
  rw [value, ← pointValue_withoutZeros, pointValue, mul_assoc, ← zpow_add₀ (by norm_num),
    neg_add_eq_sub]
  rfl

/-- The value of parts is that of all their digits, moved by the exponent and the digits behind the
point. -/
theorem value_eq (p : Parts) :
  p.value = ofDigits (p.whole ++ p.fraction) * 10 ^ (p.exponent.getD 0 - p.fraction.length)
  := by
  rw [value, pointValue, mul_assoc, ← zpow_add₀ (by norm_num), neg_add_eq_sub]

/-- The coefficient is no greater than the number that all digits spell. -/
theorem coefficient_le (p : Parts) :
  p.coefficient ≤ ofDigits (p.whole ++ p.fraction)
  := by
  obtain ⟨n, hn⟩ := exists_append_replicate p.fraction
  conv_rhs => rw [hn, ← List.append_assoc, ofDigits_append]
  rw [coefficient]
  apply (Nat.le_mul_of_pos_right _ (Nat.pow_pos (by decide))).trans (Nat.le_add_right _ _)

/-- The digits of a number behind a point and some zeros. -/
def below (n zeros : Nat) : Parts where
  whole := ['0']
  fraction := List.replicate zeros '0' ++ plain n
  ending := []
  exponent := none
  digits_whole := Digits.singleton rfl
  whole_ne_nil := List.cons_ne_nil _ _
  leading := fun _ => rfl
  digits_fraction := (Digits.replicate_zero zeros).append (digits_plain n)
  isExponentPart := .missing

/-- The digits of a number before some zeros and a point, with a zero behind it. -/
def above (n zeros : Nat) (hzero : n = 0 → zeros = 0) : Parts where
  whole := plain n ++ List.replicate zeros '0'
  fraction := ['0']
  ending := []
  exponent := none
  digits_whole := (digits_plain n).append (Digits.replicate_zero zeros)
  whole_ne_nil := List.append_ne_nil_of_left_ne_nil (plain_ne_nil n) _
  leading := by
    intro hhead
    obtain rfl | hn := eq_or_ne n 0
    · rw [hzero rfl]
      rfl
    · rw [List.head?_append_of_ne_nil _ (plain_ne_nil n)] at hhead
      cases head?_plain hn hhead
  digits_fraction := Digits.singleton rfl
  isExponentPart := .missing

/-- The digits of a number with a point behind the first ones, unless these are all, and an
exponent. -/
def within (n count : Nat) (hcount : 0 < count) {ending : List Char} {exponent : Option Int}
    (h : IsExponentPart ending exponent) : Parts where
  whole := (plain n).take count
  fraction := (plain n).drop count
  ending := ending
  exponent := exponent
  digits_whole := Digits.of_sublist (List.take_sublist _ _) (digits_plain n)
  whole_ne_nil := by
    rw [Ne, List.take_eq_nil_iff, not_or]
    exact ⟨hcount.ne', plain_ne_nil n⟩
  leading := by
    intro hhead
    rw [List.head?_take, if_neg hcount.ne'] at hhead
    rw [leading_plain n hhead, List.take_of_length_le hcount]
  digits_fraction := Digits.of_sublist (List.drop_sublist _ _) (digits_plain n)
  isExponentPart := h

/-- A number below one is written with zeros between the point and its digits. -/
theorem text_below (n zeros : Nat) :
  (below n zeros).text = '0' :: '.' :: List.replicate zeros '0' ++ plain n
  := by
  have hne : List.replicate zeros '0' ++ plain n ≠ [] :=
    List.append_ne_nil_of_right_ne_nil _ (plain_ne_nil n)
  rw [text]
  simp only [below]
  rw [pointed_of_ne_nil _ hne, List.append_nil]
  rfl

/-- A number without places is written with zeros behind its digits, and one place. -/
theorem text_above {n zeros : Nat} (hzero : n = 0 → zeros = 0) :
  (above n zeros hzero).text = plain n ++ List.replicate zeros '0' ++ ['.', '0']
  := by
  rw [text]
  apply List.append_nil

end Parts

/-- The parts spell a number that is not written as an integer, and their coefficient has no more
digits than given. -/
structure IsPartsOf (p : Parts) (q : ℚ) (count : Nat) : Prop where
  value_eq : p.value = q
  integral_eq : p.integral = false
  coefficient_lt : p.coefficient < 10 ^ count

namespace IsPartsOf

variable {n zeros count : Nat}

/-- The parts of a number below one have its value, and no more digits than it. -/
theorem below (n zeros : Nat) :
  IsPartsOf (.below n zeros) (n * 10 ^ (-(zeros : ℤ) - digitCount n)) (digitCount n)
  := by
  have hspelled : ofDigits (['0'] ++ (List.replicate zeros '0' ++ plain n)) = n := by
    have hzeros : ['0'] ++ (List.replicate zeros '0' ++ plain n)
        = List.replicate (zeros + 1) '0' ++ plain n := rfl
    rw [hzeros, ofDigits_append, ofDigits_replicate_zero, Nat.zero_mul, Nat.zero_add, ofDigits_plain]
  constructor
  · rw [Parts.value_eq]
    simp only [Parts.below]
    rw [hspelled, List.length_append, List.length_replicate, length_plain, Option.getD_none,
      Nat.cast_add]
    congr 2
    ring
  · have hne : List.replicate zeros '0' ++ plain n ≠ [] :=
      List.append_ne_nil_of_right_ne_nil _ (plain_ne_nil n)
    rw [Parts.integral, Bool.and_eq_false_iff]
    exact .inl (List.isEmpty_eq_false_iff.mpr hne)
  · apply (Parts.coefficient_le _).trans_lt
    apply hspelled.le.trans_lt (lt_pow_digitCount n)

/-- The parts of a number without places have its value, and the digits in front of the point. -/
theorem above (hzero : n = 0 → zeros = 0) :
  IsPartsOf (.above n zeros hzero) (n * 10 ^ (zeros : ℤ)) (digitCount n + zeros)
  := by
  have hwhole : ofDigits (plain n ++ List.replicate zeros '0') = n * 10 ^ zeros := by
    rw [ofDigits_append, ofDigits_replicate_zero, ofDigits_plain, List.length_replicate, Nat.add_zero]
  constructor
  · have hzero' : pointValue (plain n ++ List.replicate zeros '0') ['0']
        = pointValue (plain n ++ List.replicate zeros '0') [] :=
      pointValue_append_zeros _ [] 1
    rw [Parts.value]
    simp only [Parts.above]
    rw [hzero', pointValue_nil, hwhole, Option.getD_none, zpow_zero, mul_one, Nat.cast_mul,
      Nat.cast_pow, Nat.cast_ofNat, zpow_natCast]
  · rfl
  · have hcoefficient : (Parts.above n zeros hzero).coefficient = n * 10 ^ zeros := by
      rw [← hwhole, Parts.coefficient]
      apply congrArg ofDigits (List.append_nil _)
    rw [hcoefficient, Nat.pow_add]
    apply Nat.mul_lt_mul_of_pos_right (lt_pow_digitCount n) (Nat.pow_pos (by decide))

/-- The parts of a number whose digits the point divides have its value, and no more digits than it. -/
theorem within (hcount : 0 < count) (hle : count ≤ digitCount n) {ending : List Char}
    {exponent : Option Int} (h : IsExponentPart ending exponent)
    (hshown : count < digitCount n ∨ exponent ≠ none) :
  IsPartsOf (.within n count hcount h)
    (n * 10 ^ (exponent.getD 0 + count - digitCount n)) (digitCount n)
  := by
  have hspelled : ofDigits ((plain n).take count ++ (plain n).drop count) = n := by
    rw [List.take_append_drop, ofDigits_plain]
  constructor
  · rw [Parts.value_eq]
    simp only [Parts.within]
    rw [hspelled, List.length_drop, length_plain, Nat.cast_sub hle]
    congr 2
    ring
  · rw [Parts.integral, Bool.and_eq_false_iff]
    cases hshown with
    | inl hlt =>
        apply Or.inl
        have hlength : 0 < ((plain n).drop count).length := by
          rw [List.length_drop, length_plain]
          omega
        apply List.isEmpty_eq_false_iff.mpr (List.ne_nil_of_length_pos hlength)
    | inr hsome =>
        apply Or.inr
        apply Option.isNone_eq_false_iff.mpr
        apply Option.isSome_iff_ne_none.mpr hsome
  · apply (Parts.coefficient_le _).trans_lt
    apply hspelled.le.trans_lt (lt_pow_digitCount n)

/-- Parts with no more than some digits have no more than any greater number of them. -/
theorem mono {p : Parts} {q : ℚ} {count' : Nat} (h : IsPartsOf p q count) (hle : count ≤ count') :
  IsPartsOf p q count'
  := ⟨h.value_eq, h.integral_eq, h.coefficient_lt.trans_le (Nat.pow_le_pow_right (by decide) hle)⟩

end IsPartsOf

namespace Layout

variable {n : Nat} {e : ℤ}

/-- A positional text has parts with the value of the digits; it has no more digits than these, or
those before the point. -/
theorem exists_parts_positionalText (hzero : n = 0 → e = 0) :
  ∃ p : Parts, positionalText (plain n) e = p.text
    ∧ IsPartsOf p (n * 10 ^ (e + 1 - digitCount n)) (max (digitCount n) (e + 1).toNat)
  := by
  have hlength := length_plain n
  rw [positionalText]
  split
  · rename_i hneg
    use .below n (-e - 1).toNat
    have hexponent : -((-e - 1).toNat : ℤ) - digitCount n = e + 1 - digitCount n := by omega
    rw [Parts.text_below, ← hexponent]
    exact ⟨rfl, (IsPartsOf.below n _).mono (Nat.le_max_left _ _)⟩
  · rename_i hpos
    simp only
    split
    · rename_i hle
      have hzeros : n = 0 → e.toNat + 1 - (plain n).length = 0 := by
        intro hn
        have hcount := digitCount_pos n
        rw [hzero hn]
        omega
      use .above n (e.toNat + 1 - (plain n).length) hzeros
      have hexponent : ((e.toNat + 1 - (plain n).length : Nat) : ℤ) = e + 1 - digitCount n := by omega
      rw [Parts.text_above, ← hexponent]
      refine ⟨rfl, (IsPartsOf.above hzeros).mono ?_⟩
      omega
    · rename_i hlt
      use .within n (e.toNat + 1) (Nat.succ_pos _) .missing
      have hparts := IsPartsOf.within (n := n) (Nat.succ_pos e.toNat) (by omega) .missing (.inl (by omega))
      have hexponent : (Option.getD none 0 : ℤ) + (e.toNat.succ : Nat) - digitCount n
          = e + 1 - digitCount n := by
        rw [Option.getD_none]
        omega
      have hne : (plain n).drop (e.toNat + 1) ≠ [] := by
        rw [Ne, List.drop_eq_nil_iff]
        apply hlt
      rw [hexponent] at hparts
      refine ⟨?_, hparts.mono (Nat.le_max_left _ _)⟩
      rw [Parts.text]
      simp only [Parts.within]
      rw [pointed_of_ne_nil _ hne, List.append_nil]

/-- A scientific text has parts with the value of the digits. -/
theorem exists_parts_scientificText (plus : Bool) (n : Nat) (e : ℤ) :
  ∃ p : Parts, scientificText plus (plain n) e = p.text
    ∧ IsPartsOf p (n * 10 ^ (e + 1 - digitCount n)) (digitCount n)
  := by
  have hexponent : IsExponentPart
      ('e' :: (if e < 0 then ['-'] else if plus then ['+'] else []) ++ plain e.natAbs) (some e) := by
    split
    · rename_i hneg
      have hminus := IsExponentPart.minus e.natAbs
      rwa [show -(e.natAbs : ℤ) = e by omega] at hminus
    · rename_i hpos
      have habs : (e.natAbs : ℤ) = e := by omega
      split
      · have hplus := IsExponentPart.plus e.natAbs
        rwa [habs] at hplus
      · have hunsigned := IsExponentPart.unsigned e.natAbs
        rwa [habs] at hunsigned
  use .within n 1 Nat.one_pos hexponent
  rw [scientificText, List.append_assoc]
  exact ⟨rfl, IsPartsOf.within Nat.one_pos (digitCount_pos n) hexponent (.inr (Option.some_ne_none e))⟩

/-- The text of a literal has parts with its value, behind its sign.  The coefficient has no more
digits than that of the literal, or than the layout writes before a point. -/
theorem exists_parts_literalText {layout : Layout} {l : Literal} {count : Nat}
    (hzero : l.coefficient = 0 → l.exponent = 0)
    (hlayout : ∀ e, layout.positional e = true → e < count) :
  ∃ p : Parts, layout.literalText l = p.signedText l.negative
    ∧ IsPartsOf p l.value (max (digitCount l.coefficient) count)
  := by
  have hcount := digitCount_pos l.coefficient
  have hlength := length_plain l.coefficient
  have hvalue (e : ℤ) (he : e = (plain l.coefficient).length - 1 + l.exponent) :
      l.value = l.coefficient * 10 ^ (e + 1 - digitCount l.coefficient) := by
    rw [Literal.value, he, hlength]
    congr 2
    ring
  rw [literalText]
  generalize he : ((plain l.coefficient).length : ℤ) - 1 + l.exponent = e
  rw [hvalue e he.symm]
  obtain ⟨p, hbody, hparts⟩ : ∃ p : Parts,
      (if layout.positional e = true then positionalText (plain l.coefficient) e
        else scientificText layout.plus (plain l.coefficient) e) = p.text
      ∧ IsPartsOf p (l.coefficient * 10 ^ (e + 1 - digitCount l.coefficient))
        (max (digitCount l.coefficient) count) := by
    split
    · rename_i hpositional
      have hbound := hlayout e hpositional
      have hsmall : l.coefficient = 0 → e = 0 := by
        intro hn
        rw [← he, hzero hn, hn]
        rfl
      obtain ⟨p, htext, hparts⟩ := exists_parts_positionalText hsmall
      refine ⟨p, htext, hparts.mono (max_le_max le_rfl ?_)⟩
      omega
    · obtain ⟨p, htext, hparts⟩ := exists_parts_scientificText layout.plus l.coefficient e
      exact ⟨p, htext, hparts.mono (Nat.le_max_left _ _)⟩
  rw [hbody]
  exact ⟨p, rfl, hparts⟩

end Layout

end RenderKernel.Decimal
