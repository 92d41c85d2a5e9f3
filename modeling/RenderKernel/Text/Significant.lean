import RenderKernel.Decimal.Digits
import RenderKernel.Number.Binary
import RenderKernel.Number.Integer

/-!
# The parts of a text with significant digits

A geometric value is shown to people rounded to some significant digits: in positional notation
or in scientific notation, whose exponent has a sign and at least two digits, without zeros at
the end of a fraction.  The pieces of both notations are put together here; which notation a
value takes is decided where it is shown.

A precision beyond `maxPrecision` cannot be asked for.
-/

namespace RenderKernel

/-- Why a number cannot be written. -/
inductive FormatFault where
  | precisionOutOfRange
  /-- The number of digits behind the point cannot be computed. -/
  | arithmetic (fault : ArithmeticFault)
deriving DecidableEq, Repr

/-- The text that reports a fault. -/
def FormatFault.message : FormatFault → String
  | .precisionOutOfRange => "Formatting argument out of range"
  | .arithmetic fault => fault.message

namespace Significant

/-- The number of significant digits of displayed values, unless another is asked for. -/
def defaultDigits : Nat := 4

/-- The greatest number of digits after a point. -/
def maxPrecision : Nat := 65535

/-- Passes a precision that is in range. -/
def checkPrecision (places : Nat) : Except FormatFault Unit :=
  if maxPrecision < places then .error .precisionOutOfRange else .ok ()

/-- A sign, and an exponent of at least two digits. -/
def exponentText (e : Int) : List Char :=
  'e' :: (if e < 0 then '-' else '+') :: Decimal.padded (max 2 (Decimal.digitCount e.natAbs)) e.natAbs

/-- The first digit, and the others behind a point. -/
def mantissaText (digits n : Nat) : List Char :=
  Decimal.pointed (Decimal.padded 1 (n / Nat.pow 10 (digits - 1)))
    (Decimal.padded (digits - 1) (n % Nat.pow 10 (digits - 1)))

/-- A text behind a sign, if the value is negative. -/
def signed (negative : Bool) (cs : List Char) : List Char := if negative then '-' :: cs else cs

end Significant

end RenderKernel
