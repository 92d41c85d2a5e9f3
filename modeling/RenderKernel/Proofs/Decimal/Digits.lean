import Mathlib.Data.List.DropRight
import Mathlib.Tactic.Ring
import RenderKernel.Decimal.Digits
import RenderKernel.Proofs.Number.Ratio

/-!
# Lists of decimal digits

A list of digits is determined by its length and by the number that it spells, and `padded` is the
list of a given length that spells a number up to a power of ten.  The digits of a number without
padding spell the number itself, and do not begin with a zero unless it is the only digit.
-/

namespace RenderKernel.Decimal

/-- Every character is a decimal digit. -/
def Digits (cs : List Char) : Prop := ∀ c ∈ cs, c.isDigit = true

namespace Digits

variable {cs ds : List Char} {c : Char}

theorem nil :
  Digits []
  := by
  intro c hc
  cases hc

theorem singleton (hc : c.isDigit = true) :
  Digits [c]
  := by
  intro d hd
  rw [List.mem_singleton.mp hd]
  apply hc

theorem append (hc : Digits cs) (hd : Digits ds) :
  Digits (cs ++ ds)
  := by
  intro c h
  cases List.mem_append.mp h with
  | inl h => apply hc c h
  | inr h => apply hd c h

theorem of_sublist (h : cs.Sublist ds) (hd : Digits ds) :
  Digits cs
  := fun c hc => hd c (h.mem hc)

theorem replicate_zero (n : Nat) :
  Digits (List.replicate n '0')
  := by
  intro c hc
  rw [List.eq_of_mem_replicate hc]
  decide

/-- A character that is no digit does not occur among digits. -/
theorem ne_of_mem (h : Digits cs) (hmem : c ∈ cs) {d : Char} (hd : d.isDigit = false) :
  c ≠ d
  := by
  rintro rfl
  rw [h c hmem] at hd
  cases hd

end Digits

/-! ### The number that digits spell -/

/-- The number that a digit stands for. -/
def digitValue (c : Char) : Nat := c.toNat - '0'.toNat

theorem digitValue_lt {c : Char} (hc : c.isDigit = true) :
  digitValue c < 10
  := by
  have hnine : '9'.toNat = '0'.toNat + 9 := rfl
  have hrange := Char.isDigit_iff_toNat.mp hc
  rw [digitValue]
  omega

/-- A digit is determined by its value. -/
theorem eq_of_digitValue_eq {c d : Char} (hc : c.isDigit = true) (hd : d.isDigit = true)
    (h : digitValue c = digitValue d) :
  c = d
  := by
  have hcrange := Char.isDigit_iff_toNat.mp hc
  have hdrange := Char.isDigit_iff_toNat.mp hd
  apply Char.toNat_inj.mp
  rw [digitValue, digitValue] at h
  omega

theorem ofDigits_singleton (c : Char) :
  ofDigits [c] = digitValue c
  := Nat.zero_add _

/-- Digits that are followed by others stand for as many powers of ten as follow. -/
theorem ofDigits_append (cs ds : List Char) :
  ofDigits (cs ++ ds) = ofDigits cs * 10 ^ ds.length + ofDigits ds
  := by
  have hfold (cs : List Char) : ofDigits cs = Nat.ofDigitChars 10 cs 0 := rfl
  rw [hfold, hfold, hfold, Nat.ofDigitChars_append, Nat.ofDigitChars_eq_ofDigitChars_zero,
    Nat.mul_comm]

theorem ofDigits_cons (c : Char) (cs : List Char) :
  ofDigits (c :: cs) = digitValue c * 10 ^ cs.length + ofDigits cs
  := by
  rw [← List.singleton_append, ofDigits_append, ofDigits_singleton]

theorem ofDigits_replicate_zero (n : Nat) :
  ofDigits (List.replicate n '0') = 0
  := Nat.ofDigitChars_replicate_zero

/-- The value of some digits lies below the power of ten with as many zeros. -/
theorem ofDigits_lt {cs : List Char} (h : Digits cs) :
  ofDigits cs < 10 ^ cs.length
  := by
  induction cs with
  | nil => exact Nat.one_pos
  | cons c cs ih =>
      have hc := digitValue_lt (h c List.mem_cons_self)
      have hcs := ih (Digits.of_sublist (List.sublist_cons_self c cs) h)
      rw [ofDigits_cons, List.length_cons, Nat.pow_succ']
      have := Nat.mul_le_mul_right (10 ^ cs.length) (Nat.succ_le_of_lt hc)
      rw [Nat.succ_mul] at this
      omega

/-- If digits of one length are the last ones of a number, the number determines what they spell, and
what the digits before them spell. -/
theorem ofDigits_append_inj {cs ds cs' ds' : List Char} (hd : Digits ds) (hd' : Digits ds')
    (hlength : ds.length = ds'.length) (h : ofDigits (cs ++ ds) = ofDigits (cs' ++ ds')) :
  ofDigits cs = ofDigits cs' ∧ ofDigits ds = ofDigits ds'
  := by
  have hlt := ofDigits_lt hd
  have hlt' := ofDigits_lt hd'
  rw [ofDigits_append, ofDigits_append, hlength] at h
  rw [hlength] at hlt
  have hlast : ofDigits ds = ofDigits ds' := by
    have hmod := congrArg (· % 10 ^ ds'.length) h
    simp only [Nat.mul_add_mod_self_right] at hmod
    rwa [Nat.mod_eq_of_lt hlt, Nat.mod_eq_of_lt hlt'] at hmod
  rw [hlast] at h
  exact ⟨Nat.eq_of_mul_eq_mul_right (Nat.pow_pos (by decide)) (Nat.add_right_cancel h), hlast⟩

/-- Digits of one length that spell the same number are the same. -/
theorem eq_of_ofDigits_eq {cs ds : List Char} (hc : Digits cs) (hd : Digits ds)
    (hlength : cs.length = ds.length) (h : ofDigits cs = ofDigits ds) :
  cs = ds
  := by
  induction cs generalizing ds with
  | nil => rw [List.length_eq_zero_iff.mp hlength.symm]
  | cons c cs ih =>
      obtain _ | ⟨d, ds⟩ := ds
      · cases hlength
      · have hlength' : cs.length = ds.length := Nat.succ_inj.mp hlength
        have hc' := Digits.of_sublist (List.sublist_cons_self c cs) hc
        have hd' := Digits.of_sublist (List.sublist_cons_self d ds) hd
        rw [← List.singleton_append, ← List.singleton_append (l := ds)] at h
        obtain ⟨hfirst, hrest⟩ := ofDigits_append_inj hc' hd' hlength' h
        rw [ofDigits_singleton, ofDigits_singleton] at hfirst
        rw [ih hc' hd' hlength' hrest,
          eq_of_digitValue_eq (hc c List.mem_cons_self) (hd d List.mem_cons_self) hfirst]

/-! ### Padded digits -/

/-- The list consists of the last `width` digits of a number, leading zeros included. -/
structure Spells (width n : Nat) (cs : List Char) : Prop where
  digits : Digits cs
  length_eq : cs.length = width
  ofDigits_eq : ofDigits cs = n % 10 ^ width

namespace Spells

variable {width width' n m : Nat} {cs ds : List Char}

/-- A spelling of the higher digits and one of the lower digits are a spelling together. -/
theorem append (hc : Spells width (n / 10 ^ width') cs) (hd : Spells width' n ds) :
  Spells (width + width') n (cs ++ ds)
  := by
  constructor
  · apply hc.digits.append hd.digits
  · rw [List.length_append, hc.length_eq, hd.length_eq]
  · rw [ofDigits_append, hc.ofDigits_eq, hd.ofDigits_eq, hd.length_eq, Nat.add_comm width,
      Nat.pow_add, Nat.mod_mul, Nat.mul_comm, Nat.add_comm]

/-- A spelling depends only on the digits that its width reaches. -/
theorem of_mod_eq (h : n % 10 ^ width = m % 10 ^ width) (hc : Spells width n cs) :
  Spells width m cs
  := ⟨hc.digits, hc.length_eq, by rw [hc.ofDigits_eq, h]⟩

end Spells

theorem isDigit_digitChar_mod (n : Nat) :
  (Nat.digitChar (n % 10)).isDigit = true
  := by
  rw [Nat.isDigit_digitChar, decide_eq_true_eq]
  apply Nat.mod_lt n (by decide)

/-- The last digit of a number spells it with the width of one. -/
theorem spells_digitChar (n : Nat) :
  Spells 1 n [Nat.digitChar (n % 10)]
  := by
  constructor
  · apply Digits.singleton (isDigit_digitChar_mod n)
  · rfl
  · rw [ofDigits_singleton, Nat.pow_one]
    apply Nat.toNat_digitChar_sub_48_of_lt_ten (Nat.mod_lt n (by decide))

/-- A padded number is spelled with its width.  Each half of a number of more than one digit is shorter
than the whole, so that the width is fuel enough. -/
theorem spells_padded (width n : Nat) :
  Spells width n (padded width n)
  := by
  have hgo (fuel width n : Nat) (hfuel : width ≤ fuel) :
      Spells width n (padded.go fuel width n) := by
    induction fuel generalizing width n with
    | zero =>
        obtain rfl := Nat.le_zero.mp hfuel
        exact ⟨Digits.nil, rfl, by rw [Nat.pow_zero, Nat.mod_one]; rfl⟩
    | succ fuel ih =>
        rw [padded.go]
        split
        · rename_i hzero
          rw [hzero]
          exact ⟨Digits.nil, rfl, by rw [Nat.pow_zero, Nat.mod_one]; rfl⟩
        · split
          · rename_i hone
            rw [hone]
            apply spells_digitChar
          · simp only [Nat.pow_eq]
            have hhigh := ih (width - width / 2) (n / 10 ^ (width / 2)) (by omega)
            have hlow := ih (width / 2) (n % 10 ^ (width / 2)) (by omega)
            have hwhole := hhigh.append (hlow.of_mod_eq (Nat.mod_mod n _))
            rwa [Nat.sub_add_cancel (Nat.div_le_self width 2)] at hwhole
  apply hgo width width n le_rfl

theorem digits_padded (width n : Nat) :
  Digits (padded width n)
  := (spells_padded width n).digits

theorem length_padded (width n : Nat) :
  (padded width n).length = width
  := (spells_padded width n).length_eq

/-- Padded digits stand for the part of the number that the width reaches. -/
theorem ofDigits_padded (width n : Nat) :
  ofDigits (padded width n) = n % 10 ^ width
  := (spells_padded width n).ofDigits_eq

/-! ### Digits without padding -/

/-- A number has one digit more than the decimal logarithm says. -/
theorem digitCount_eq (n : Nat) :
  digitCount n = Nat.log 10 n + 1
  := by
  rw [digitCount, Ratio.digitLog_eq (by decide)]

/-- A number lies below the power of ten with as many zeros as it has digits. -/
theorem lt_pow_digitCount (n : Nat) :
  n < 10 ^ digitCount n
  := by
  rw [digitCount_eq]
  apply Nat.lt_pow_succ_log_self (by decide)

/-- A positive number reaches the power of ten with as many digits. -/
theorem pow_le_of_pos {n : Nat} (hn : n ≠ 0) :
  10 ^ (digitCount n - 1) ≤ n
  := by
  rw [digitCount_eq, Nat.add_sub_cancel]
  apply Nat.pow_log_le_self 10 hn

theorem digitCount_pos (n : Nat) :
  0 < digitCount n
  := by
  rw [digitCount_eq]
  apply Nat.succ_pos

/-- The number of digits is determined by the powers of ten around the number. -/
theorem digitCount_eq_of_pow {n k : Nat} (hlow : 10 ^ k ≤ n) (hhigh : n < 10 ^ (k + 1)) :
  digitCount n = k + 1
  := by
  rw [digitCount_eq, Nat.log_eq_of_pow_le_of_lt_pow hlow hhigh]

/-- What lies below a power of ten has no more digits than the power has zeros. -/
theorem digitCount_le {n k : Nat} (hk : 0 < k) (h : n < 10 ^ k) :
  digitCount n ≤ k
  := by
  rw [digitCount_eq]
  apply Nat.log_lt_of_lt_pow' hk.ne' h

theorem digits_plain (n : Nat) :
  Digits (plain n)
  := digits_padded _ n

theorem length_plain (n : Nat) :
  (plain n).length = digitCount n
  := length_padded _ n

/-- The digits of a number stand for it. -/
theorem ofDigits_plain (n : Nat) :
  ofDigits (plain n) = n
  := by
  rw [plain, ofDigits_padded, Nat.mod_eq_of_lt (lt_pow_digitCount n)]

theorem plain_ne_nil (n : Nat) :
  plain n ≠ []
  := by
  rw [← List.length_pos_iff, length_plain]
  apply digitCount_pos

theorem plain_zero :
  plain 0 = ['0']
  := rfl

/-- Only zero has a leading zero. -/
theorem head?_plain {n : Nat} (hn : n ≠ 0) :
  (plain n).head? ≠ some '0'
  := by
  intro hhead
  obtain ⟨cs, hcs⟩ := List.head?_eq_some_iff.mp hhead
  have hvalue := ofDigits_plain n
  have hlength := length_plain n
  have hdigits := digits_plain n
  rw [hcs] at hvalue hlength hdigits
  have hlt := ofDigits_lt (Digits.of_sublist (List.sublist_cons_self _ cs) hdigits)
  have hcount : cs.length = digitCount n - 1 := by
    rw [← hlength, List.length_cons, Nat.add_sub_cancel]
  rw [ofDigits_cons, show digitValue '0' = 0 from rfl, Nat.zero_mul, Nat.zero_add] at hvalue
  rw [hvalue, hcount] at hlt
  have hle := pow_le_of_pos hn
  omega

/-- A list of digits that no zero leads, unless it is the zero alone, is the text of a number. -/
theorem eq_plain_of_leading {cs : List Char} (hdigits : Digits cs) (hne : cs ≠ [])
    (hleading : cs.head? = some '0' → cs = ['0']) :
  cs = plain (ofDigits cs)
  := by
  obtain ⟨c, ds, rfl⟩ := List.exists_cons_of_ne_nil hne
  have hc := hdigits c List.mem_cons_self
  obtain rfl | hzero := eq_or_ne c '0'
  · rw [hleading rfl]
    rfl
  · have hpos : 0 < digitValue c := by
      apply Nat.pos_of_ne_zero
      intro hvalue
      apply hzero (eq_of_digitValue_eq hc rfl hvalue)
    have hlow : 10 ^ ds.length ≤ ofDigits (c :: ds) := by
      rw [ofDigits_cons]
      apply (Nat.le_mul_of_pos_left _ hpos).trans (Nat.le_add_right _ _)
    apply eq_of_ofDigits_eq hdigits (digits_plain _)
    · rw [length_plain, digitCount_eq_of_pow hlow (ofDigits_lt hdigits), List.length_cons]
    · rw [ofDigits_plain]

/-! ### Zeros at the end -/

/-- Digits without the zeros that end them. -/
def withoutZeros (cs : List Char) : List Char := cs.rdropWhile (· == '0')

/-- Without the zeros that end it, a list is what it was but for some zeros at its end. -/
theorem exists_append_replicate (cs : List Char) :
  ∃ n, cs = withoutZeros cs ++ List.replicate n '0'
  := by
  use (cs.rtakeWhile (· == '0')).length
  have hzeros : cs.rtakeWhile (· == '0') = List.replicate (cs.rtakeWhile (· == '0')).length '0' := by
    rw [List.eq_replicate_iff]
    constructor
    · rfl
    · intro c hc
      have hzero := List.mem_rtakeWhile_imp hc
      apply beq_iff_eq.mp hzero
  rw [← hzeros, withoutZeros, List.rdropWhile_append_rtakeWhile]

theorem digits_withoutZeros {cs : List Char} (h : Digits cs) :
  Digits (withoutZeros cs)
  := Digits.of_sublist (List.rdropWhile_prefix _ _).sublist h

/-- No zero is left at the end. -/
theorem getLast?_withoutZeros (cs : List Char) :
  (withoutZeros cs).getLast? ≠ some '0'
  := by
  intro hlast
  have hne : withoutZeros cs ≠ [] := by
    intro hnil
    rw [hnil] at hlast
    cases hlast
  rw [List.getLast?_eq_some_getLast hne, Option.some_inj] at hlast
  apply List.rdropWhile_last_not (· == '0') cs hne
  apply beq_iff_eq.mpr hlast

/-! ### The decimal point -/

theorem pointed_nil (whole : List Char) :
  pointed whole [] = whole
  := rfl

theorem pointed_of_ne_nil (whole : List Char) {fraction : List Char} (h : fraction ≠ []) :
  pointed whole fraction = whole ++ '.' :: fraction
  := by
  rw [pointed, if_neg (by rwa [List.isEmpty_iff])]

/-- With at least one digit before the point, a text begins with a digit. -/
theorem exists_cons_pointed {whole : List Char} (h : Digits whole) (hne : whole ≠ [])
    (fraction : List Char) :
  ∃ c cs, c.isDigit = true ∧ pointed whole fraction = c :: cs
  := by
  obtain ⟨c, cs, rfl⟩ := List.exists_cons_of_ne_nil hne
  have hc := h c List.mem_cons_self
  obtain rfl | hfraction := eq_or_ne fraction []
  · exact ⟨c, cs, hc, rfl⟩
  · rw [pointed_of_ne_nil _ hfraction]
    exact ⟨c, cs ++ '.' :: fraction, hc, rfl⟩

/-- There is no point among digits. -/
theorem Digits.point_not_mem {cs : List Char} (h : Digits cs) :
  '.' ∉ cs
  := fun hmem => h.ne_of_mem hmem (d := '.') rfl rfl

/-- Trimming acts on the digits behind the point.  If nothing is left of them, the point goes as well,
and otherwise the last digit that is left keeps it. -/
theorem trimFraction_pointed {whole fraction : List Char} (hwhole : Digits whole)
    (hfraction : Digits fraction) :
  trimFraction (pointed whole fraction) = pointed whole (withoutZeros fraction)
  := by
  obtain rfl | hne := eq_or_ne fraction []
  · rw [withoutZeros, List.rdropWhile_nil, pointed_nil, trimFraction, if_neg]
    rw [List.contains_iff_mem]
    apply hwhole.point_not_mem
  · have hpoint : ((whole ++ '.' :: fraction).contains '.') = true := by
      rw [List.contains_iff_mem]
      apply List.mem_append_right
      apply List.mem_cons_self
    have hreverse : (whole ++ '.' :: fraction).reverse = fraction.reverse ++ '.' :: whole.reverse := by
      rw [List.reverse_append, List.reverse_cons, List.append_assoc]
      rfl
    have hkept : fraction.reverse.dropWhile (· == '0') = (withoutZeros fraction).reverse :=
      (List.reverse_reverse _).symm
    rw [pointed_of_ne_nil whole hne, trimFraction, if_pos hpoint, hreverse, List.dropWhile_append,
      hkept, List.isEmpty_reverse]
    obtain hzeros | hzeros := eq_or_ne (withoutZeros fraction) []
    · have hstays : whole.reverse.dropWhile (· == '.') = whole.reverse := by
        rw [List.dropWhile_eq_self_iff]
        intro hlength hdot
        apply hwhole.point_not_mem
        rw [← beq_iff_eq.mp hdot]
        apply List.mem_reverse.mp (List.getElem_mem hlength)
      rw [hzeros, if_pos List.isEmpty_nil, List.dropWhile_cons_of_neg (by decide),
        List.dropWhile_cons_of_pos (by decide), hstays, List.reverse_reverse, pointed_nil]
    · have hpos : 0 < (withoutZeros fraction).reverse.length :=
        List.length_pos_iff.mpr (mt List.reverse_eq_nil_iff.mp hzeros)
      have hstays : ((withoutZeros fraction).reverse ++ '.' :: whole.reverse).dropWhile (· == '.')
          = (withoutZeros fraction).reverse ++ '.' :: whole.reverse := by
        rw [List.dropWhile_eq_self_iff]
        intro hlength hdot
        rw [List.getElem_append_left hpos] at hdot
        apply (digits_withoutZeros hfraction).point_not_mem
        rw [← beq_iff_eq.mp hdot]
        apply List.mem_reverse.mp (List.getElem_mem hpos)
      rw [if_neg (by rwa [List.isEmpty_iff]), hstays, pointed_of_ne_nil whole hzeros,
        List.reverse_append, List.reverse_cons, List.reverse_reverse, List.reverse_reverse,
        List.append_assoc]
      rfl

/-- What is trimmed from a text does not reach a minus sign before it. -/
theorem trimFraction_minus (cs : List Char) :
  trimFraction ('-' :: cs) = '-' :: trimFraction cs
  := by
  have hstays {p : Char → Bool} (hp : p '-' = false) (ds : List Char) :
      (ds ++ ['-']).dropWhile p = ds.dropWhile p ++ ['-'] := by
    rw [List.dropWhile_append]
    split
    · rename_i hempty
      rw [List.isEmpty_iff.mp hempty, List.dropWhile_cons_of_neg (by rw [hp]; exact Bool.false_ne_true)]
      rfl
    · rfl
  have hcontains : ('-' :: cs).contains '.' = cs.contains '.' := rfl
  rw [trimFraction, trimFraction, hcontains]
  split
  · rw [List.reverse_cons, hstays rfl, hstays rfl, List.reverse_append]
    rfl
  · rfl

end RenderKernel.Decimal
