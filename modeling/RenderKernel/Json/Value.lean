import RenderKernel.Decimal.Layout
import RenderKernel.Number.Integer

/-!
# JSON values

The values of the data format, with numbers as the document spells them.  A number without a
point and an exponent is an integer, if it fits into 64 bits, signed or unsigned, and is not a
negative zero; every other number is a floating-point number.

Into a floating-point format a number is read with a single rounding to the nearest, a tie
going to the even magnitude, with two exceptions.  Of a number with more digits than any middle
between two neighbours has, only the first ones are looked at, the others being taken for
something above zero; and a negative integer that 64 bits hold without its sign only is rounded
to the format of 64 bits first.
-/

namespace RenderKernel.Json

/-- A number as a document spells it, but for the zeros that end its fraction. -/
structure Number extends Decimal.Literal where
  /-- Whether the number is spelled without a point and without an exponent. -/
  integral : Bool
deriving DecidableEq, Repr

/-- A value of the data format; the members of an object are in document order. -/
inductive Value where
  | null
  | boolean (b : Bool)
  | number (n : Number)
  | string (s : String)
  | array (items : List Value)
  | object (members : List (String × Value))
deriving Repr

namespace Number

/-- The number for an integer. -/
def ofInt (n : Int) : Number := ⟨⟨n < 0, n.natAbs, 0⟩, true⟩

/-- The signed value of an integral number. -/
def signedValue (n : Number) : Int := if n.negative then -n.coefficient else n.coefficient

/-- The integer that a number is read as, if it is read as one. -/
def asInteger? (n : Number) : Option Int :=
  let kind : IntegerKind := if n.negative then .signed64 else .unsigned64
  if n.integral && !(n.negative && n.coefficient == 0) && kind.holds n.signedValue then
    some n.signedValue
  else
    none

/-- Whether a number is a negative integer that 64 bits hold without its sign, but not with
it. -/
def fitsUnsignedOnly (n : Number) : Bool :=
  n.integral && n.negative && !IntegerKind.signed64.holds n.signedValue
    && IntegerKind.unsigned64.holds n.coefficient

/-- The number of a format that a number of a document is read as. -/
def toBinary {f : Format} (n : Number) : Binary f :=
  if n.fitsUnsignedOnly then
    let x : Binary .double := n.toLiteral.toBinary
    x.convert
  else
    (n.toLiteral.clip (Decimal.middleDigits f)).toBinary

/-- The layout of floating-point numbers of the format of 64 bits. -/
def doubleLayout : Decimal.Layout where
  positional e := -5 ≤ e && e ≤ 15
  plus := true
  tie := .even

/-- The layout of floating-point numbers of the format of 32 bits. -/
def singleLayout : Decimal.Layout where
  positional e := -6 ≤ e && e ≤ 12
  plus := true
  tie := .even

end Number

namespace Value

/-- The first member of an object with a key. -/
def get? (v : Value) (key : String) : Option Value :=
  match v with
  | .object members => members.lookup key
  | _ => none

/-- The text of a string. -/
def string? : Value → Option String
  | .string s => some s
  | _ => none

/-- The value of a number that is a natural number. -/
def nat? : Value → Option Nat
  | .number n => if n.negative then none else n.asInteger?.map Int.toNat
  | _ => none

/-- The items of an array. -/
def items? : Value → Option (List Value)
  | .array items => some items
  | _ => none

end Value

end RenderKernel.Json
