import RenderKernel.Number.Rounding
import RenderKernel.Text.Significant

/-!
# How numbers are shown

`Binary.shownText digits x` is the text in which a number of 64 bits is shown with at most
`digits` significant digits.  The number is written in scientific notation first.  The exponent
is cut off from this text and read back as an integer of 32 bits, and it decides the notation.
For positional notation the number of places is found by subtraction in 32 bits, and the number
is written a second time, from its value, with that many places.

An exponent that is missing or cannot be read would count as zero, and a negative number of
places as none.
-/

namespace RenderKernel

namespace Bounded

variable {k : IntegerKind}

/-- The integer that digits spell, at least one of them, with a minus sign before them or without. -/
def ofDigits? (negative : Bool) (ds : List Char) : Option (Bounded k) :=
  if ds.isEmpty || !ds.all Char.isDigit then none
  else ofInt? (if negative then -(Decimal.ofDigits ds : Int) else Decimal.ofDigits ds)

/-- Reads an integer: a sign, which may be missing, and digits.  Only kinds with a sign have a minus
sign. -/
def read? : List Char → Option (Bounded k)
  | '-' :: ds => if k.signed then ofDigits? true ds else none
  | '+' :: ds => ofDigits? false ds
  | ds => ofDigits? false ds

end Bounded

namespace Significant

/-- A positive ratio in scientific notation, with `places` digits behind the point.  The exponent
is as short as possible. -/
def scientificText (places : Nat) (r : Ratio) : List Char :=
  let (n, e) := Decimal.roundSignificant (places + 1) r
  mantissaText (places + 1) n ++ 'e' :: signed (e < 0) (Decimal.plain e.natAbs)

/-- What stands before the first occurrence of a character, and what stands behind it. -/
def splitAtFirst (c : Char) (cs : List Char) : Option (List Char × List Char) :=
  if cs.contains c then some (cs.takeWhile (· != c), (cs.dropWhile (· != c)).drop 1) else none

/-- The two parts of a text in scientific notation. -/
def mantissaAndExponent (cs : List Char) : List Char × Bounded .signed32 :=
  match splitAtFirst 'e' cs with
  | some (mantissa, exponent) => (mantissa, (Bounded.read? exponent).getD Bounded.zero)
  | none => (cs, Bounded.zero)

/-- How many places the digits of a number reach whose first one has the given exponent. -/
def placesBehind (digits : Nat) (exponent : Bounded .signed32) : Checked .signed32 :=
  .ok (Bounded.wrap digits) - .ok (Bounded.wrap 1) - .ok exponent

end Significant

namespace Binary

open Significant

/-- The number with at most `digits` significant digits; none counts as one. -/
def shownText (digits : Nat) (x : Binary .double) : Except FormatFault (List Char) :=
  if x.isNaN then return ['n', 'a', 'n']
  else if x.isInfinite then return signed x.negative ['i', 'n', 'f']
  else if x.isZero then return signed x.negative ['0']
  else do
    let digits := max digits 1
    checkPrecision (digits - 1)
    let (mantissa, exponent) :=
      mantissaAndExponent (signed x.negative (scientificText (digits - 1) x.ratio))
    if exponent.val < -4 ∨ (Bounded.wrap digits : Bounded .signed32).val ≤ exponent.val then
      return Decimal.trimFraction mantissa ++ exponentText exponent.val
    else
      let places ← (placesBehind digits exponent).mapError .arithmetic
      checkPrecision (max places.val 0).toNat
      return Decimal.trimFraction
        (signed x.negative (Decimal.fixedText (max places.val 0).toNat x.ratio))

end Binary

end RenderKernel
