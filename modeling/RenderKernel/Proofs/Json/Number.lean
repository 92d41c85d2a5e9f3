import RenderKernel.Json.Scalar
import RenderKernel.Proofs.Decimal.Layout
import RenderKernel.Proofs.Decimal.Shortest
import RenderKernel.Proofs.Number.Integer

/-!
# Numbers read back

The text of a number in the data format is read as the number again, whatever follows it in the
document.  The reader takes the parts of the text that the layout has written, and of a decimal that
is nearest to a number of the format it makes this number, in a single step.

A number that is not finite is written as `null`, which is no number.
-/

namespace RenderKernel.Json

open Decimal

/-! ### What follows a number -/

/-- No digit follows. -/
def NoDigit (rest : List Char) : Prop := ∀ c, rest.head? = some c → c.isDigit = false

/-- No number goes on into what follows it. -/
def Ends (rest : List Char) : Prop :=
  ∀ c, rest.head? = some c → c.isDigit = false ∧ c ≠ '.' ∧ c ≠ 'e' ∧ c ≠ 'E'

variable {rest : List Char}

theorem Ends.noDigit (h : Ends rest) :
  NoDigit rest
  := fun c hc => (h c hc).1

theorem ends_cons {c : Char} (h : c.isDigit = false ∧ c ≠ '.' ∧ c ≠ 'e' ∧ c ≠ 'E') :
  Ends (c :: rest)
  := by
  rintro d ⟨⟩
  apply h

theorem noDigit_cons {c : Char} (h : c.isDigit = false) :
  NoDigit (c :: rest)
  := by
  rintro d ⟨⟩
  apply h

/-! ### The parts of a number -/

theorem readDigits_append {ds : List Char} (hds : Digits ds) (hne : ds ≠ []) (hrest : NoDigit rest) :
  readDigits (ds ++ rest) = some (ds, rest)
  := by
  have hstop : rest.takeWhile Char.isDigit = [] ∧ rest.dropWhile Char.isDigit = rest := by
    cases rest with
    | nil => exact ⟨rfl, rfl⟩
    | cons c cs =>
        have hc : ¬c.isDigit = true := by
          rw [hrest c rfl]
          apply Bool.false_ne_true
        exact ⟨List.takeWhile_cons_of_neg hc, List.dropWhile_cons_of_neg hc⟩
  rw [readDigits, List.takeWhile_append_of_pos hds, List.dropWhile_append_of_pos hds, hstop.1, hstop.2,
    List.append_nil]
  apply if_neg
  rwa [List.isEmpty_iff]

theorem readWhole_append {ds : List Char} (hds : Digits ds) (hne : ds ≠ [])
    (hleading : ds.head? = some '0' → ds = ['0']) (hrest : NoDigit rest) :
  readWhole (ds ++ rest) = some (ds, rest)
  := by
  rw [readWhole, readDigits_append hds hne hrest]
  apply if_neg
  rintro ⟨hhead, hlength⟩
  apply hlength
  rw [hleading hhead]
  rfl

theorem readDigits_plain (n : Nat) (hrest : NoDigit rest) :
  readDigits (plain n ++ rest) = some (plain n, rest)
  := readDigits_append (digits_plain n) (plain_ne_nil n) hrest

/-- The signs with which an exponent can be written. -/
theorem readSignedDigits_plain (n : Nat) (hrest : NoDigit rest) :
  readSignedDigits (plain n ++ rest) = some ((n : Int), rest)
    ∧ readSignedDigits ('+' :: plain n ++ rest) = some ((n : Int), rest)
    ∧ readSignedDigits ('-' :: plain n ++ rest) = some (-(n : Int), rest)
  := by
  have hread := readDigits_plain n hrest
  have hvalue := ofDigits_plain n
  refine ⟨?_, ?_, ?_⟩
  · obtain ⟨c, cs, hcs⟩ := List.exists_cons_of_ne_nil (plain_ne_nil n)
    have hc : c.isDigit = true := by
      apply digits_plain n
      rw [hcs]
      apply List.mem_cons_self
    rw [hcs] at hread hvalue ⊢
    rw [List.cons_append] at hread ⊢
    rw [readSignedDigits, hread, ← hvalue]
    · rfl
    · rintro ds ⟨⟩
      cases hc
    · rintro ds ⟨⟩
      cases hc
  · rw [List.cons_append, readSignedDigits, hread]
    apply congrArg (fun k : Nat => some ((k : Int), rest)) hvalue
  · rw [List.cons_append, readSignedDigits, hread]
    apply congrArg (fun k : Nat => some (-(k : Int), rest)) hvalue

theorem readExponent_append {ending : List Char} {exponent : Option Int}
    (h : IsExponentPart ending exponent) (hrest : Ends rest) :
  readExponent (ending ++ rest) = some (exponent, rest)
  := by
  cases h with
  | missing =>
      rw [List.nil_append, readExponent]
      · rintro cs rfl
        apply (hrest 'e' rfl).2.2.1 rfl
      · rintro cs rfl
        apply (hrest 'E' rfl).2.2.2 rfl
  | unsigned n =>
      rw [List.cons_append, readExponent, (readSignedDigits_plain n hrest.noDigit).1]
      rfl
  | plus n =>
      rw [List.cons_append, readExponent, (readSignedDigits_plain n hrest.noDigit).2.1]
      rfl
  | minus n =>
      rw [List.cons_append, readExponent, (readSignedDigits_plain n hrest.noDigit).2.2]
      rfl

/-- What follows the digits of a number goes on neither with a digit nor with a point. -/
theorem ending_append {ending : List Char} {exponent : Option Int}
    (h : IsExponentPart ending exponent) (hrest : Ends rest) :
  ∀ c, (ending ++ rest).head? = some c → c.isDigit = false ∧ c ≠ '.'
  := by
  intro c hc
  cases h with
  | missing => exact ⟨(hrest c hc).1, (hrest c hc).2.1⟩
  | unsigned n =>
      cases hc
      decide
  | plus n =>
      cases hc
      decide
  | minus n =>
      cases hc
      decide

/-- The parts of a number are read from its text. -/
theorem readUnsigned_text (negative : Bool) (p : Parts) (hrest : Ends rest) :
  readUnsigned negative (p.text ++ rest) = some (⟨p.literal negative, p.integral⟩, rest)
  := by
  have hending := ending_append p.isExponentPart hrest
  have hexponent := readExponent_append p.isExponentPart hrest
  have hnodigit : NoDigit (p.ending ++ rest) := fun c hc => (hending c hc).1
  obtain ⟨after, hsplit, hafter, hfraction⟩ : ∃ after, p.text ++ rest = p.whole ++ after
      ∧ NoDigit after ∧ readFraction after = some (p.fraction, p.ending ++ rest) := by
    obtain hnil | hne := eq_or_ne p.fraction []
    · refine ⟨p.ending ++ rest, ?_, hnodigit, ?_⟩
      · rw [Parts.text, hnil, pointed_nil, List.append_assoc]
      · rw [hnil, readFraction]
        intro cs hcs
        apply (hending '.' _).2 rfl
        rw [hcs]
        rfl
    · refine ⟨'.' :: p.fraction ++ (p.ending ++ rest), ?_, noDigit_cons rfl, ?_⟩
      · rw [Parts.text, pointed_of_ne_nil _ hne, List.append_assoc, List.append_assoc]
      · rw [List.cons_append, readFraction, readDigits_append p.digits_fraction hne hnodigit]
  rw [readUnsigned, hsplit, readWhole_append p.digits_whole p.whole_ne_nil p.leading hafter]
  simp only [Option.bind_eq_bind, Option.bind_some, hfraction, hexponent]
  rfl

/-- The parts of a number are read from its text behind a sign. -/
theorem readNumber_text (negative : Bool) (p : Parts) (hrest : Ends rest) :
  readNumber (p.signedText negative ++ rest) = some (⟨p.literal negative, p.integral⟩, rest)
  := by
  cases negative with
  | true =>
      rw [Parts.signedText, if_pos rfl, List.cons_append, readNumber]
      apply readUnsigned_text true p hrest
  | false =>
      obtain ⟨c, cs, hc, htext⟩ := p.exists_cons
      rw [Parts.signedText, if_neg Bool.false_ne_true, readNumber]
      · apply readUnsigned_text false p hrest
      · rw [htext]
        rintro ds ⟨⟩
        cases hc

/-! ### Scalars -/

/-- The text of parts, behind a sign, begins as the reader of scalars expects a number to begin. -/
theorem exists_cons_signed (negative : Bool) (p : Parts) :
  ∃ c cs, (c = '-' ∨ c.isDigit = true) ∧ p.signedText negative = c :: cs
  := by
  cases negative with
  | true => exact ⟨'-', p.text, .inl rfl, rfl⟩
  | false =>
      obtain ⟨c, cs, hc, htext⟩ := p.exists_cons
      exact ⟨c, cs, .inr hc, htext⟩

theorem isBlank_of_number {c : Char} (h : c = '-' ∨ c.isDigit = true) :
  isBlank c = false
  := by
  by_contra hblank
  simp only [isBlank, Bool.not_eq_false, Bool.or_eq_true, beq_iff_eq] at hblank
  obtain ((rfl | rfl) | rfl) | rfl := hblank
  · revert h
    decide
  · revert h
    decide
  · revert h
    decide
  · revert h
    decide

variable {V : Type} [Scalar V]

/-- A scalar is read from a text of parts as its kind reads the number that the parts spell. -/
theorem readScalar_text (negative : Bool) (p : Parts) (hrest : Ends rest) :
  readScalar (V := V) (p.signedText negative ++ rest)
    = (Scalar.ofNumber ⟨p.literal negative, p.integral⟩).map fun x => (x, rest)
  := by
  have hread := readNumber_text negative p hrest
  obtain ⟨c, cs, hc, htext⟩ := exists_cons_signed negative p
  rw [htext, List.cons_append] at hread ⊢
  have hskip : skipBlanks (c :: (cs ++ rest)) = c :: (cs ++ rest) := by
    apply List.dropWhile_cons_of_neg
    rw [isBlank_of_number hc]
    apply Bool.false_ne_true
  rw [readScalar, hskip]
  simp only [if_pos hc, hread]

/-- A number is read from its text, whatever follows it. -/
def ReadsBack (x : V) : Prop :=
  ∀ rest, Ends rest → readScalar (Scalar.text x ++ rest) = .ok (x, rest)

/-- The text of a number is refused as a value that is no number of its kind. -/
def Refused (x : V) : Prop :=
  ∃ cause, ∀ rest, readScalar (V := V) (Scalar.text x ++ rest) = .error (.mismatch cause)

/-! ### Floating-point numbers -/

section Floats

variable {f : Format} {x : Binary f}

/-- A number that is spelled with a point or an exponent is read with a single rounding, if it has
few enough digits. -/
theorem floatOfNumber_eq {n : Number} (hfinite : x.isFinite = true) (hintegral : n.integral = false)
    (hnegative : n.negative = x.negative) (hmagnitude : n.toLiteral.magnitude f = x.magnitude)
    (hcount : digitCount n.coefficient ≤ middleDigits f) :
  floatOfNumber n = .ok x
  := by
  have hunsigned : n.fitsUnsignedOnly = false := by
    rw [Number.fitsUnsignedOnly, hintegral]
    rfl
  have hread : n.toBinary = x := by
    rw [Number.toBinary, hunsigned, if_neg Bool.false_ne_true, Literal.clip_eq_self hcount]
    apply Literal.toBinary_eq hnegative hmagnitude hfinite
  have hlt : x.magnitude < f.infinity := of_decide_eq_true hfinite
  rw [floatOfNumber, hread]
  apply if_neg
  rw [Binary.isInfinite, beq_iff_eq]
  apply hlt.ne

/-- The text of a finite number has parts that are read as the number. -/
theorem exists_parts_floatText {layout : Layout} (hfinite : x.isFinite = true)
    (hlayout : ∀ e, layout.positional e = true → e < middleDigits f)
    (henough : enoughDigits f ≤ middleDigits f) :
  ∃ p : Parts, floatText layout x = p.signedText x.negative
    ∧ floatOfNumber ⟨p.literal x.negative, p.integral⟩ = .ok x
  := by
  obtain ⟨hnegative, hmagnitude, hfew⟩ := Binary.shortest_spec layout.tie hfinite
  have hcount := hfew.trans henough
  have hzero : (x.shortest layout.tie).coefficient = 0 → (x.shortest layout.tie).exponent = 0 := by
    intro hcoefficient
    rw [Literal.magnitude, if_pos hcoefficient] at hmagnitude
    rw [Binary.shortest_zero hmagnitude.symm]
  obtain ⟨p, htext, hparts⟩ := Layout.exists_parts_literalText hzero hlayout
  rw [max_eq_right hcount] at hparts
  rw [hnegative] at htext
  use p
  constructor
  · rw [floatText, if_pos hfinite, Layout.finiteText, htext]
  · apply floatOfNumber_eq hfinite hparts.integral_eq rfl
    · rw [← hmagnitude]
      apply Literal.magnitude_congr
      rw [Parts.value_literal, hparts.value_eq]
    · apply digitCount_le (digitCount_pos _ |>.trans_le hcount) hparts.coefficient_lt

/-- Not a number, and neither infinity, is `null` in a document. -/
theorem floatText_of_not_finite {layout : Layout} (h : x.isFinite = false) :
  floatText layout x = ['n', 'u', 'l', 'l']
  := by
  rw [floatText, h, if_neg Bool.false_ne_true]

/-- `null` is no number. -/
theorem readScalar_null (rest : List Char) :
  readScalar (V := V) (['n', 'u', 'l', 'l'] ++ rest)
    = .error (.mismatch (.type .null (.scalar (Scalar.name V))))
  := rfl

/-- A kind of floating-point numbers that the data format writes in a layout.  Neither what the layout
writes before a point nor a shortest decimal is clipped when it is read. -/
structure Written (f : Format) [Scalar (Binary f)] (layout : Layout) : Prop where
  text_eq : ∀ x : Binary f, Scalar.text x = floatText layout x
  ofNumber_eq : ∀ n : Number, Scalar.ofNumber (V := Binary f) n = floatOfNumber n
  positional_lt : ∀ e, layout.positional e = true → e < middleDigits f
  enough_le : enoughDigits f ≤ middleDigits f

theorem written_single :
  Written .single Number.singleLayout
  := by
  constructor
  · intro x
    rfl
  · intro n
    rfl
  · intro e he
    have hrange : -6 ≤ e ∧ e ≤ 12 := by
      rwa [Number.singleLayout, Bool.and_eq_true, decide_eq_true_eq, decide_eq_true_eq] at he
    have hmiddle : middleDigits .single = 113 := by decide +kernel
    omega
  · decide +kernel

theorem written_double :
  Written .double Number.doubleLayout
  := by
  constructor
  · intro x
    rfl
  · intro n
    rfl
  · intro e he
    have hrange : -5 ≤ e ∧ e ≤ 15 := by
      rwa [Number.doubleLayout, Bool.and_eq_true, decide_eq_true_eq, decide_eq_true_eq] at he
    have hmiddle : middleDigits .double = 768 := by decide +kernel
    omega
  · decide +kernel

variable [Scalar (Binary f)] {layout : Layout}

/-- A finite number is read from its text. -/
theorem Written.readsBack (h : Written f layout) (hfinite : x.isFinite = true) :
  ReadsBack x
  := by
  obtain ⟨p, htext, hread⟩ := exists_parts_floatText hfinite h.positional_lt h.enough_le
  intro rest hrest
  rw [h.text_eq, htext, readScalar_text _ _ hrest, h.ofNumber_eq, hread]
  rfl

/-- A number that is not finite is refused. -/
theorem Written.refused (h : Written f layout) (hfinite : x.isFinite = false) :
  Refused x
  := by
  use .type .null (.scalar (Scalar.name (Binary f)))
  intro rest
  rw [h.text_eq, floatText_of_not_finite hfinite, readScalar_null]

end Floats

/-! ### Integers -/

/-- The parts of an integer without its sign. -/
def integerParts (n : Nat) : Parts where
  whole := plain n
  fraction := []
  ending := []
  exponent := none
  digits_whole := digits_plain n
  whole_ne_nil := plain_ne_nil n
  leading := leading_plain n
  digits_fraction := Digits.nil
  isExponentPart := .missing

theorem text_integerParts (n : Nat) :
  (integerParts n).text = plain n
  := by
  rw [Parts.text]
  apply List.append_nil

theorem literal_integerParts (negative : Bool) (n : Nat) :
  (integerParts n).literal negative = ⟨negative, n, 0⟩
  := by
  have hcoefficient : (integerParts n).coefficient = n := by
    rw [Parts.coefficient]
    apply (congrArg ofDigits (List.append_nil (plain n))).trans (ofDigits_plain n)
  rw [Parts.literal, hcoefficient]
  rfl

theorem holds_signed64 {i : Int} (hlow : -2 ^ 63 ≤ i) (hhigh : i < 2 ^ 63) :
  IntegerKind.signed64.holds i = true
  := by
  have hleast : IntegerKind.signed64.least = -2 ^ 63 := rfl
  have hgreatest : IntegerKind.signed64.greatest = 2 ^ 63 - 1 := rfl
  rw [IntegerKind.holds_iff, hleast, hgreatest]
  omega

theorem holds_unsigned64 {i : Int} (hlow : 0 ≤ i) (hhigh : i < 2 ^ 64) :
  IntegerKind.unsigned64.holds i = true
  := by
  have hleast : IntegerKind.unsigned64.least = 0 := rfl
  have hgreatest : IntegerKind.unsigned64.greatest = 2 ^ 64 - 1 := rfl
  rw [IntegerKind.holds_iff, hleast, hgreatest]
  omega

/-- An integer that 64 bits hold with its sign, or without one if it is not negative, is read as an
integer. -/
theorem asInteger?_eq {i : Int} (hlow : -2 ^ 63 ≤ i) (hhigh : i < 2 ^ 64) :
  (⟨⟨decide (i < 0), i.natAbs, 0⟩, true⟩ : Number).asInteger? = some i
  := by
  have hvalue : (⟨⟨decide (i < 0), i.natAbs, 0⟩, true⟩ : Number).signedValue = i := by
    rw [Number.signedValue]
    simp only [decide_eq_true_eq]
    split
    · omega
    · omega
  rw [Number.asInteger?, hvalue]
  apply if_pos
  by_cases hneg : i < 0
  · have hne : (i.natAbs == 0) = false := beq_false_of_ne (by omega)
    have hholds := holds_signed64 hlow (hneg.trans (by norm_num))
    simp only [decide_eq_true hneg, hne, hholds, if_true]
    rfl
  · have hholds := holds_unsigned64 (not_lt.mp hneg) hhigh
    simp only [decide_eq_false hneg, Bool.false_eq_true, if_false, hholds]
    rfl

/-- An integer of at most 64 bits is read from its text. -/
theorem readsBack_integer {k : IntegerKind} (hbits : k.bits ≤ 64) (x : Bounded k) :
  ReadsBack x
  := by
  obtain ⟨i, hleast, hgreatest⟩ := x
  obtain ⟨hlow, hhigh⟩ := IntegerKind.bounds_of_bits_le hbits
  intro rest hrest
  have htext : Scalar.text (⟨i, hleast, hgreatest⟩ : Bounded k)
      = (integerParts i.natAbs).signedText (decide (i < 0)) := by
    rw [Parts.signedText, text_integerParts]
    simp only [decide_eq_true_eq]
    rfl
  have hread : Scalar.ofNumber (V := Bounded k) ⟨⟨decide (i < 0), i.natAbs, 0⟩, true⟩
      = .ok ⟨i, hleast, hgreatest⟩ := by
    have hinteger := asInteger?_eq (hlow.trans hleast) (hgreatest.trans_lt hhigh)
    have hfits : Bounded.ofInt? (k := k) i = some ⟨i, hleast, hgreatest⟩ := dif_pos ⟨hleast, hgreatest⟩
    simp only [Scalar.ofNumber, hinteger, hfits]
  have hintegral : (integerParts i.natAbs).integral = true := rfl
  rw [htext, readScalar_text _ _ hrest, literal_integerParts, hintegral, hread]
  rfl

end RenderKernel.Json
