import RenderKernel.Number.Arithmetic
import RenderKernel.Proofs.Number.Nearest
import RenderKernel.Proofs.Text.Shown

/-!
# The number that a shown number denotes

A finite number is shown as the text of its rounded value (`textValue_significantText`), and the text
depends on this value and the sign only (`significantText_congr`); so it does not matter in which
format the number is given.

Rounding keeps the order, and so does showing: the texts of numbers in order denote numbers in order.
The text of the opposite of a number is its text behind a minus sign (`shownText_ordered`).
-/

namespace RenderKernel.Binary

open Decimal Significant

variable {f g : Format} {digits : Nat} {cs ds : List Char}

/-- The number as which a finite number is shown: its absolute value rounded to significant digits,
at least one, with its sign. -/
def shownValue (digits : Nat) (x : Binary f) : ℚ :=
  if x.negative then -roundedTo (max digits 1) x.ratio.toRat
  else roundedTo (max digits 1) x.ratio.toRat

section

variable {x : Binary f} {y : Binary g}

theorem significantText_of_isZero (hfinite : x.isFinite = true) (h : x.isZero = true) :
  x.significantText digits = .ok (signed x.negative ['0'])
  := by
  obtain ⟨hnan, hinfinite⟩ := x.isFinite_iff.mp hfinite
  rw [significantText, hnan, hinfinite, h]
  rfl

/-- The text of a finite number other than zero is a numeral behind the sign of the number. -/
theorem exists_numeral (hfinite : x.isFinite = true) (hzero : x.isZero = false)
    (h : x.significantText digits = .ok cs) :
  ∃ numeral, IsNumeral (max digits 1) (roundedTo (max digits 1) x.ratio.toRat) numeral
    ∧ cs = signed x.negative numeral
  := by
  rw [significantText_of_ne_zero hfinite hzero] at h
  cases hpositive : positiveText (max digits 1) x.ratio with
  | error fault =>
      rw [hpositive] at h
      cases h
  | ok numeral =>
      rw [hpositive] at h
      cases h
      have hr := x.num_ratio_pos_iff.mpr (ne_of_beq_false hzero)
      exact ⟨numeral, positiveText_rounded (Nat.le_max_right _ _) hr hpositive, rfl⟩

/-- The text of a finite number begins with a digit, behind the sign of the number. -/
theorem exists_signed (hfinite : x.isFinite = true) (h : x.significantText digits = .ok cs) :
  ∃ numeral, (∃ c ds, c.isDigit = true ∧ numeral = c :: ds) ∧ cs = signed x.negative numeral
  := by
  cases hzero : x.isZero with
  | true =>
      rw [significantText_of_isZero hfinite hzero] at h
      cases h
      exact ⟨['0'], ⟨'0', [], rfl, rfl⟩, rfl⟩
  | false =>
      obtain ⟨numeral, hnumeral, hcs⟩ := exists_numeral hfinite hzero h
      exact ⟨numeral, hnumeral.exists_cons, hcs⟩

/-- The text of a finite number denotes its rounded value. -/
theorem textValue_significantText (hfinite : x.isFinite = true)
    (h : x.significantText digits = .ok cs) :
  textValue cs = x.shownValue digits
  := by
  cases hzero : x.isZero with
  | true =>
      rw [significantText_of_isZero hfinite hzero] at h
      cases h
      have hunsigned : textValue ['0'] = 0 := by decide +kernel
      have hsigned : textValue ['-', '0'] = 0 := by decide +kernel
      rw [shownValue, toRat_ratio_of_isZero hzero, roundedTo_zero, neg_zero, ite_self]
      cases x.negative with
      | true => exact hsigned
      | false => exact hunsigned
  | false =>
      obtain ⟨numeral, hnumeral, rfl⟩ := exists_numeral hfinite hzero h
      apply hnumeral.textValue_signed

/-- What is shown depends on the sign and the rounded absolute value only. -/
theorem significantText_congr (hx : x.isFinite = true) (hy : y.isFinite = true)
    (hsign : x.negative = y.negative)
    (h : roundedTo (max digits 1) x.ratio.toRat = roundedTo (max digits 1) y.ratio.toRat) :
  x.significantText digits = y.significantText digits
  := by
  have hdigits : 0 < max digits 1 := Nat.le_max_right _ _
  have hpos {f : Format} {z : Binary f} (hz : z.isZero = false) :
      0 < roundedTo (max digits 1) z.ratio.toRat := by
    apply roundedTo_pos hdigits
    exact Ratio.toRat_pos_iff.mpr (z.num_ratio_pos_iff.mpr (ne_of_beq_false hz))
  cases hxzero : x.isZero with
  | true =>
      rw [toRat_ratio_of_isZero hxzero, roundedTo_zero] at h
      cases hyzero : y.isZero with
      | true =>
          rw [significantText_of_isZero hx hxzero, significantText_of_isZero hy hyzero, hsign]
      | false => exact absurd h (hpos hyzero).ne
  | false =>
      cases hyzero : y.isZero with
      | true =>
          rw [toRat_ratio_of_isZero hyzero, roundedTo_zero] at h
          exact absurd h (hpos hxzero).ne'
      | false =>
          rw [significantText_of_ne_zero hx hxzero, significantText_of_ne_zero hy hyzero, hsign,
            positiveText_congr hdigits (x.num_ratio_pos_iff.mpr (ne_of_beq_false hxzero))
              (y.num_ratio_pos_iff.mpr (ne_of_beq_false hyzero)) h]

end

/-! ### Order and sign -/

section

variable {x y : Binary f}

theorem roundedTo_ratio_nonneg (digits : Nat) (x : Binary f) :
  0 ≤ roundedTo (max digits 1) x.ratio.toRat
  := roundedTo_nonneg (Nat.le_max_right _ _) x.ratio.toRat_nonneg

theorem roundedTo_ratio_mono (digits : Nat) (h : x.magnitude ≤ y.magnitude) :
  roundedTo (max digits 1) x.ratio.toRat ≤ roundedTo (max digits 1) y.ratio.toRat
  := roundedTo_mono (Nat.le_max_right _ _) x.ratio.toRat_nonneg (toRat_ratio_mono h)

/-- Numbers in order are shown as numbers in order.  A number without a sign is only below one with a
sign if both are zero. -/
theorem shownValue_mono (digits : Nat) (h : x ≤ y) :
  x.shownValue digits ≤ y.shownValue digits
  := by
  have hkey : x.key ≤ y.key := of_decide_eq_true (Bool.and_eq_true_iff.mp h).2
  have hx := roundedTo_ratio_nonneg digits x
  have hy := roundedTo_ratio_nonneg digits y
  rw [shownValue, shownValue]
  rw [key, key] at hkey
  cases hxsign : x.negative with
  | true =>
      cases hysign : y.negative with
      | true =>
          rw [hxsign, hysign, if_pos rfl, if_pos rfl] at hkey
          apply neg_le_neg
          apply roundedTo_ratio_mono
          omega
      | false => exact (neg_nonpos.mpr hx).trans hy
  | false =>
      rw [hxsign] at hkey
      cases hysign : y.negative with
      | true =>
          rw [hysign, if_neg Bool.false_ne_true, if_pos rfl] at hkey
          have hxzero : x.isZero = true := beq_iff_eq.mpr (by omega)
          have hyzero : y.isZero = true := beq_iff_eq.mpr (by omega)
          rw [toRat_ratio_of_isZero hxzero, toRat_ratio_of_isZero hyzero, roundedTo_zero, neg_zero,
            ite_self, ite_self]
      | false =>
          rw [hysign] at hkey
          apply roundedTo_ratio_mono
          exact Int.ofNat_le.mp hkey

/-- The text of the opposite of a number without a sign has one. -/
theorem significantText_neg (hnan : x.isNaN = false) (hsign : x.negative = false) :
  (-x).significantText digits = (x.significantText digits).map ('-' :: ·)
  := by
  have hnan' : (-x).isNaN = false := hnan
  have hinfinite' : (-x).isInfinite = x.isInfinite := rfl
  have hzero' : (-x).isZero = x.isZero := rfl
  have hratio' : (-x).ratio = x.ratio := rfl
  have hsign' : (-x).negative = true := congrArg not hsign
  rw [significantText, significantText, hnan, hnan', hinfinite', hzero', hratio', hsign, hsign']
  cases x.isInfinite with
  | true => rfl
  | false =>
      cases x.isZero with
      | true => rfl
      | false =>
          cases hpositive : positiveText (max digits 1) x.ratio with
          | error fault => rfl
          | ok numeral => rfl

end

/-- With a fixed number of digits, no number is shown as a greater one than a number above it, and the
opposite of a number without a sign is shown as this number behind a minus sign. -/
theorem shownText_ordered (digits : Nat) :
  (∀ x y : Binary .double, x.isFinite = true → y.isFinite = true → x ≤ y →
      ∀ cs ds, x.shownText digits = .ok cs → y.shownText digits = .ok ds →
        textValue cs ≤ textValue ds)
    ∧ ∀ x : Binary .double, x.isNaN = false → x.negative = false →
        (-x).shownText digits = (x.shownText digits).map ('-' :: ·)
  := by
  constructor
  · intro x y hx hy hle cs ds hcs hds
    rw [shownText_eq] at hcs hds
    rw [textValue_significantText hx hcs, textValue_significantText hy hds]
    apply shownValue_mono digits hle
  · intro x hnan hsign
    rw [shownText_eq, shownText_eq]
    apply significantText_neg hnan hsign

/-- The greater of two numbers carries into the next power of ten, and takes the other notation. -/
theorem shownText_ordered_carried :
  let x : Binary .double := ofBits 0x40c387b333333333
  let y : Binary .double := ofBits 0x40c387d99999999a
  x.shownText 4 = .ok ['9', '9', '9', '9'] ∧ y.shownText 4 = .ok ['1', 'e', '+', '0', '4']
    ∧ textValue ['9', '9', '9', '9'] ≤ textValue ['1', 'e', '+', '0', '4']
    ∧ (-y).shownText 4 = .ok ['-', '1', 'e', '+', '0', '4']
  := by
  intro x y
  have hx : x.shownText 4 = .ok ['9', '9', '9', '9'] := by decide +kernel
  have hy : y.shownText 4 = .ok ['1', 'e', '+', '0', '4'] := by decide +kernel
  obtain ⟨hmono, hneg⟩ := shownText_ordered 4
  refine ⟨hx, hy, hmono x y (by decide +kernel) (by decide +kernel) (by decide +kernel) _ _ hx hy, ?_⟩
  rw [hneg y (by decide +kernel) (by decide +kernel), hy]
  rfl

end RenderKernel.Binary
