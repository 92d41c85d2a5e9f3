import RenderKernel.Proofs.Decimal.Digits

/-!
# Decimal numerals

Two notations for a rational number: the plain one, digits on both sides of a point without
superfluous zeros (`IsPlain`), and the scientific one, a plain number between one and ten with an
exponent of at least two digits (`IsScientific`).  A number has at most one plain numeral.

`textValue` reads a text of either kind, with or without a sign, as the number that it denotes.
-/

namespace RenderKernel.Decimal

/-! ### Digits around a point -/

/-- The number that digits before and behind a point spell. -/
def pointValue (whole fraction : List Char) : ℚ :=
  ofDigits (whole ++ fraction) * 10 ^ (-(fraction.length : ℤ))

/-- Zeros at the end of a fraction do not change the value. -/
theorem pointValue_append_zeros (whole fraction : List Char) (n : Nat) :
  pointValue whole (fraction ++ List.replicate n '0') = pointValue whole fraction
  := by
  rw [pointValue, pointValue, ← List.append_assoc, ofDigits_append, ofDigits_replicate_zero,
    Nat.add_zero, List.length_append, List.length_replicate, Nat.cast_mul, Nat.cast_pow, mul_assoc,
    Nat.cast_ofNat, ← zpow_natCast, ← zpow_add₀ (by norm_num), Nat.cast_add]
  congr 2
  ring

theorem pointValue_withoutZeros (whole fraction : List Char) :
  pointValue whole (withoutZeros fraction) = pointValue whole fraction
  := by
  obtain ⟨n, hn⟩ := exists_append_replicate fraction
  conv_rhs => rw [hn]
  rw [pointValue_append_zeros]

/-- Moved behind its last place, a number is the integer that all its digits spell. -/
theorem pointValue_mul_pow (whole fraction : List Char) :
  pointValue whole fraction * 10 ^ fraction.length = ofDigits (whole ++ fraction)
  := by
  rw [pointValue, mul_assoc, ← zpow_natCast, ← zpow_add₀ (by norm_num), neg_add_cancel, zpow_zero,
    mul_one]

theorem pointValue_nil (whole : List Char) :
  pointValue whole [] = ofDigits whole
  := by
  rw [pointValue, List.append_nil, List.length_nil, Nat.cast_zero, neg_zero, zpow_zero, mul_one]

/-- Digits on both sides of a point without superfluous zeros: none at the beginning but for the
zero that stands before a point, and none at the end. -/
structure Concise (whole fraction : List Char) : Prop where
  digits_whole : Digits whole
  digits_fraction : Digits fraction
  whole_ne_nil : whole ≠ []
  leading : whole.head? = some '0' → whole = ['0']
  trailing : fraction.getLast? ≠ some '0'

/-- Of two concise spellings of one number, neither has more digits behind the point: the longer one,
without its point, would be divisible by ten, and end with a zero. -/
theorem Concise.length_le {whole fraction whole' fraction' : List Char}
    (h' : Concise whole' fraction') (heq : pointValue whole fraction = pointValue whole' fraction') :
  fraction'.length ≤ fraction.length
  := by
  by_contra hlt
  obtain ⟨k, hk⟩ := Nat.exists_eq_add_of_lt (not_le.mp hlt)
  have hmul : ofDigits (whole' ++ fraction') = ofDigits (whole ++ fraction) * 10 ^ (k + 1) := by
    apply Nat.cast_injective (R := ℚ)
    rw [Nat.cast_mul, ← pointValue_mul_pow, ← pointValue_mul_pow, heq, hk, add_assoc, pow_add,
      Nat.cast_pow, Nat.cast_ofNat, mul_assoc]
  obtain ⟨front, c, rfl⟩ : ∃ front c, fraction' = front ++ [c] :=
    (List.eq_nil_or_concat' fraction').resolve_left fun hnil => by rw [hnil] at hlt; simp at hlt
  have hc : c.isDigit = true := h'.digits_fraction c (List.mem_append_right _ List.mem_cons_self)
  have hzero : digitValue c = 0 := by
    have hlast := digitValue_lt hc
    rw [← List.append_assoc, ofDigits_append, ofDigits_singleton, List.length_singleton,
      Nat.pow_succ 10 k, ← Nat.mul_assoc] at hmul
    omega
  apply h'.trailing
  rw [List.getLast?_concat, eq_of_digitValue_eq hc (d := '0') rfl hzero]

/-- A number has at most one concise spelling. -/
theorem Concise.unique {whole fraction whole' fraction' : List Char} (h : Concise whole fraction)
    (h' : Concise whole' fraction') (heq : pointValue whole fraction = pointValue whole' fraction') :
  whole = whole' ∧ fraction = fraction'
  := by
  have hlength : fraction.length = fraction'.length :=
    le_antisymm (h.length_le heq.symm) (h'.length_le heq)
  have hspelled : ofDigits (whole ++ fraction) = ofDigits (whole' ++ fraction') := by
    apply Nat.cast_injective (R := ℚ)
    rw [← pointValue_mul_pow, ← pointValue_mul_pow, heq, hlength]
  obtain ⟨hwhole, hfraction⟩ := ofDigits_append_inj h.digits_fraction h'.digits_fraction hlength
    hspelled
  constructor
  · rw [eq_plain_of_leading h.digits_whole h.whole_ne_nil h.leading, hwhole,
      ← eq_plain_of_leading h'.digits_whole h'.whole_ne_nil h'.leading]
  · apply eq_of_ofDigits_eq h.digits_fraction h'.digits_fraction hlength hfraction

/-- Only zero is spelled with a zero in front. -/
theorem leading_plain (n : Nat) :
  (plain n).head? = some '0' → plain n = ['0']
  := by
  intro hhead
  obtain rfl | hn := eq_or_ne n 0
  · apply plain_zero
  · cases head?_plain hn hhead

/-- The text is the plain decimal numeral of a number; the point is missing if no digits would
follow it. -/
def IsPlain (q : ℚ) (cs : List Char) : Prop :=
  ∃ whole fraction, Concise whole fraction ∧ pointValue whole fraction = q
    ∧ cs = pointed whole fraction

/-- An integer with a point before its last digits is the integer over a power of ten. -/
theorem pointValue_plain_padded (places n : Nat) :
  pointValue (plain (n / 10 ^ places)) (padded places (n % 10 ^ places)) = n * 10 ^ (-(places : ℤ))
  := by
  rw [pointValue, ofDigits_append, ofDigits_plain, ofDigits_padded, length_padded, Nat.mod_mod,
    Nat.div_add_mod']

/-- An integer with a point before its last digits, and without the zeros that then end it, is the
plain numeral of the integer over a power of ten. -/
theorem isPlain_trimmed (places n : Nat) :
  IsPlain (n * 10 ^ (-(places : ℤ)))
    (trimFraction (pointed (plain (n / 10 ^ places)) (padded places (n % 10 ^ places))))
  := by
  rw [trimFraction_pointed (digits_plain _) (digits_padded _ _)]
  use plain (n / 10 ^ places), withoutZeros (padded places (n % 10 ^ places))
  refine ⟨?_, ?_, rfl⟩
  · constructor
    · apply digits_plain
    · apply digits_withoutZeros (digits_padded _ _)
    · apply plain_ne_nil
    · apply leading_plain
    · apply getLast?_withoutZeros
  · rw [pointValue_withoutZeros, pointValue_plain_padded]

/-- The digits spell the absolute value of an exponent, two of them at least. -/
structure IsExponent (e : ℤ) (ds : List Char) : Prop where
  digits : Digits ds
  ofDigits_eq : ofDigits ds = e.natAbs
  two_le_length : 2 ≤ ds.length
  leading : ds.head? = some '0' → ds.length = 2

namespace IsExponent

variable {e : ℤ} {ds ds' : List Char}

/-- An exponent is spelled with its own digits, or with two of them if it has only one. -/
theorem length_eq (h : IsExponent e ds) :
  ds.length = max 2 (digitCount e.natAbs)
  := by
  have htwo := h.two_le_length
  have hne : ds ≠ [] := by
    rintro rfl
    cases htwo
  by_cases hhead : ds.head? = some '0'
  · have hlength := h.leading hhead
    obtain ⟨rest, rfl⟩ := List.head?_eq_some_iff.mp hhead
    have hlt := ofDigits_lt (Digits.of_sublist (List.sublist_cons_self _ rest) h.digits)
    have hvalue := h.ofDigits_eq
    rw [List.length_cons] at hlength
    rw [ofDigits_cons, show digitValue '0' = 0 from rfl, Nat.zero_mul, Nat.zero_add] at hvalue
    rw [hvalue, show rest.length = 1 by omega] at hlt
    have hcount : digitCount e.natAbs = 1 := by
      rw [digitCount_eq, Nat.log_of_lt (hlt.trans_eq (Nat.pow_one 10))]
    rw [List.length_cons, hlength, hcount]
    rfl
  · have hplain := eq_plain_of_leading h.digits hne fun hzero => absurd hzero hhead
    have hlength := congrArg List.length hplain
    rw [length_plain, h.ofDigits_eq] at hlength
    omega

/-- An exponent has one spelling. -/
theorem unique (h : IsExponent e ds) (h' : IsExponent e ds') :
  ds = ds'
  := by
  apply eq_of_ofDigits_eq h.digits h'.digits
  · rw [h.length_eq, h'.length_eq]
  · rw [h.ofDigits_eq, h'.ofDigits_eq]

end IsExponent

/-- Digits padded to a width of two spell an exponent.  With more digits there is no padding, and the
first of them is not zero. -/
theorem isExponent_padded (e : ℤ) :
  IsExponent e (padded (max 2 (digitCount e.natAbs)) e.natAbs)
  := by
  constructor
  · apply digits_padded
  · rw [ofDigits_padded, Nat.mod_eq_of_lt]
    apply (lt_pow_digitCount _).trans_le
    apply Nat.pow_le_pow_right (by decide) (Nat.le_max_right _ _)
  · rw [length_padded]
    apply Nat.le_max_left
  · intro hhead
    rw [length_padded]
    obtain hshort | hlong := le_or_gt (digitCount e.natAbs) 2
    · apply Nat.max_eq_left hshort
    · rw [Nat.max_eq_right hlong.le] at hhead
      apply absurd hhead
      apply head?_plain
      intro hzero
      rw [hzero] at hlong
      revert hlong
      decide

/-- The text is the scientific numeral of a number with the given exponent: a plain numeral between
one and ten, and the exponent behind its sign. -/
def IsScientific (q : ℚ) (e : ℤ) (cs : List Char) : Prop :=
  ∃ m mantissa ds, IsPlain m mantissa ∧ 1 ≤ m ∧ m < 10 ∧ q = m * 10 ^ e ∧ IsExponent e ds
    ∧ cs = mantissa ++ 'e' :: (if e < 0 then '-' else '+') :: ds

/-! ### The number that a text denotes -/

/-- The number that digits denote, with a point among them or without. -/
def mantissaValue (cs : List Char) : ℚ :=
  pointValue (cs.takeWhile (· != '.')) ((cs.dropWhile (· != '.')).drop 1)

/-- The integer that digits denote, with a sign before them or without. -/
def exponentValue : List Char → ℤ
  | '+' :: ds => ofDigits ds
  | '-' :: ds => -ofDigits ds
  | ds => ofDigits ds

/-- The number that a text without a sign denotes. -/
def unsignedValue (cs : List Char) : ℚ :=
  mantissaValue (cs.takeWhile (· != 'e'))
    * 10 ^ exponentValue ((cs.dropWhile (· != 'e')).drop 1)

/-- The number that a decimal text denotes. -/
def textValue : List Char → ℚ
  | '-' :: cs => -unsignedValue cs
  | cs => unsignedValue cs

theorem bne_of_not_mem {c : Char} {cs : List Char} (h : c ∉ cs) :
  ∀ d ∈ cs, (d != c) = true
  := by
  intro d hd
  apply bne_iff_ne.mpr
  rintro rfl
  apply h hd

/-- A text is split at the first occurrence of a character. -/
theorem takeWhile_ne {c : Char} {cs : List Char} (h : c ∉ cs) (ds : List Char) :
  (cs ++ c :: ds).takeWhile (· != c) = cs ∧ (cs ++ c :: ds).dropWhile (· != c) = c :: ds
  := by
  have hstop : ¬(c != c) = true := by
    rw [bne_self_eq_false]
    apply Bool.false_ne_true
  constructor
  · rw [List.takeWhile_append_of_pos (bne_of_not_mem h),
      List.takeWhile_cons_of_neg (p := (· != c)) hstop, List.append_nil]
  · rw [List.dropWhile_append_of_pos (bne_of_not_mem h),
      List.dropWhile_cons_of_neg (p := (· != c)) hstop]

/-- A text in which the character does not occur is not split. -/
theorem takeWhile_ne_self {c : Char} {cs : List Char} (h : c ∉ cs) :
  cs.takeWhile (· != c) = cs ∧ cs.dropWhile (· != c) = []
  := by
  constructor
  · apply List.takeWhile_eq_self_iff.mpr (bne_of_not_mem h)
  · apply List.dropWhile_eq_nil_iff.mpr (bne_of_not_mem h)

/-- A mantissa with a point has the value of its digits on both sides. -/
theorem mantissaValue_pointed {whole fraction : List Char} (hwhole : Digits whole) :
  mantissaValue (pointed whole fraction) = pointValue whole fraction
  := by
  rw [mantissaValue]
  obtain rfl | hne := eq_or_ne fraction []
  · obtain ⟨htake, hdrop⟩ := takeWhile_ne_self hwhole.point_not_mem
    rw [pointed_nil, htake, hdrop, List.drop_nil]
  · obtain ⟨htake, hdrop⟩ := takeWhile_ne hwhole.point_not_mem fraction
    rw [pointed_of_ne_nil whole hne, htake, hdrop, List.drop_one, List.tail_cons]

/-- There is no letter among digits and a point. -/
theorem e_not_mem_pointed {whole fraction : List Char} (hwhole : Digits whole)
    (hfraction : Digits fraction) :
  'e' ∉ pointed whole fraction
  := by
  have hdigit {ds : List Char} (hds : Digits ds) : 'e' ∉ ds :=
    fun hmem => hds.ne_of_mem hmem (d := 'e') rfl rfl
  obtain rfl | hne := eq_or_ne fraction []
  · apply hdigit hwhole
  · rw [pointed_of_ne_nil _ hne, List.mem_append, List.mem_cons]
    rintro (hmem | hpoint | hmem)
    · apply hdigit hwhole hmem
    · cases hpoint
    · apply hdigit hfraction hmem

namespace IsPlain

variable {q : ℚ} {cs ds : List Char}

/-- A number has at most one plain numeral. -/
theorem unique (h : IsPlain q cs) (h' : IsPlain q ds) :
  cs = ds
  := by
  obtain ⟨whole, fraction, hconcise, rfl, rfl⟩ := h
  obtain ⟨whole', fraction', hconcise', hvalue, rfl⟩ := h'
  obtain ⟨rfl, rfl⟩ := hconcise.unique hconcise' hvalue.symm
  rfl

/-- The mantissa that a plain numeral spells is its number. -/
theorem mantissaValue_eq (h : IsPlain q cs) :
  mantissaValue cs = q
  := by
  obtain ⟨whole, fraction, hconcise, rfl, rfl⟩ := h
  apply mantissaValue_pointed hconcise.digits_whole

/-- A plain numeral begins with a digit. -/
theorem exists_cons (h : IsPlain q cs) :
  ∃ c ds, c.isDigit = true ∧ cs = c :: ds
  := by
  obtain ⟨whole, fraction, hconcise, -, rfl⟩ := h
  apply exists_cons_pointed hconcise.digits_whole hconcise.whole_ne_nil

theorem e_not_mem (h : IsPlain q cs) :
  'e' ∉ cs
  := by
  obtain ⟨whole, fraction, hconcise, -, rfl⟩ := h
  apply e_not_mem_pointed hconcise.digits_whole hconcise.digits_fraction

/-- A plain numeral denotes its number. -/
theorem unsignedValue_eq (h : IsPlain q cs) :
  unsignedValue cs = q
  := by
  obtain ⟨htake, hdrop⟩ := takeWhile_ne_self h.e_not_mem
  rw [unsignedValue, htake, hdrop, h.mantissaValue_eq]
  apply mul_one

end IsPlain

namespace IsScientific

variable {q : ℚ} {e : ℤ} {cs ds : List Char}

/-- With a given exponent, a number has at most one scientific numeral. -/
theorem unique (h : IsScientific q e cs) (h' : IsScientific q e ds) :
  cs = ds
  := by
  obtain ⟨m, mantissa, exponent, hplain, -, -, rfl, hexponent, rfl⟩ := h
  obtain ⟨m', mantissa', exponent', hplain', -, -, hvalue, hexponent', rfl⟩ := h'
  obtain rfl : m = m' := mul_right_cancel₀ (zpow_ne_zero e (by norm_num)) hvalue
  rw [hplain.unique hplain', hexponent.unique hexponent']

theorem exists_cons (h : IsScientific q e cs) :
  ∃ c ds, c.isDigit = true ∧ cs = c :: ds
  := by
  obtain ⟨m, mantissa, ds, hplain, -, -, -, -, rfl⟩ := h
  obtain ⟨c, rest, hc, rfl⟩ := hplain.exists_cons
  exact ⟨c, _, hc, rfl⟩

/-- A scientific numeral denotes its number. -/
theorem unsignedValue_eq (h : IsScientific q e cs) :
  unsignedValue cs = q
  := by
  obtain ⟨m, mantissa, ds, hplain, -, -, rfl, hexponent, rfl⟩ := h
  obtain ⟨htake, hdrop⟩ := takeWhile_ne hplain.e_not_mem ((if e < 0 then '-' else '+') :: ds)
  have hvalue : exponentValue ((if e < 0 then '-' else '+') :: ds) = e := by
    have habs := hexponent.ofDigits_eq
    split
    · have hneg : exponentValue ('-' :: ds) = -ofDigits ds := rfl
      rw [hneg]
      omega
    · have hpos : exponentValue ('+' :: ds) = ofDigits ds := rfl
      rw [hpos]
      omega
  rw [unsignedValue, htake, hdrop, List.drop_one, List.tail_cons, hplain.mantissaValue_eq, hvalue]

end IsScientific

/-- A text that begins with a digit denotes what it denotes without regard to a sign. -/
theorem textValue_of_isDigit {cs : List Char} (h : ∃ c ds, c.isDigit = true ∧ cs = c :: ds) :
  textValue cs = unsignedValue cs
  := by
  obtain ⟨c, ds, hc, rfl⟩ := h
  rw [textValue]
  rintro ds' ⟨⟩
  cases hc

end RenderKernel.Decimal
