import RenderKernel.Decimal.Literal
import RenderKernel.Number.Integer
import RenderKernel.Text.Hexadecimal
import RenderKernel.Toml.Value

/-!
# Numbers of TOML

Integers are decimal with an optional sign, or hexadecimal, octal or binary without one, and
have 64 bits.  Floating-point numbers are of the format of 64 bits; a number that is too great
for it is not well formed, one that is too small is negative infinity.  Single underscores may
stand between digits.
-/

namespace RenderKernel.Toml

/-- The digits at the start of a text, without the underscores between them.  There must be a
digit on each side of an underscore. -/
def readDigits (digit : Char → Bool) : List Char → Option (List Char × List Char)
  | [] => none
  | [c] => if digit c then some ([c], []) else none
  | c :: d :: cs =>
    if !digit c then
      none
    else if d = '_' then do
      let (ds, rest) ← readDigits digit cs
      return (c :: ds, rest)
    else if digit d then do
      let (ds, rest) ← readDigits digit (d :: cs)
      return (c :: ds, rest)
    else
      some ([c], d :: cs)

/-- Decimal digits before a point: a zero stands alone. -/
def readWhole (cs : List Char) : Option (List Char × List Char) := do
  let (ds, rest) ← readDigits Char.isDigit cs
  if ds.head? = some '0' ∧ ds.length ≠ 1 then none else some (ds, rest)

/-- An integer without a sign in another base. -/
def readBased (base : Nat) (cs : List Char) : Option (Value × List Char) := do
  let value (c : Char) : Nat := (Text.hexDigit? c).getD base
  let (ds, rest) ← readDigits (fun c => value c < base) cs
  let n := ds.foldl (fun n d => base * n + value d) 0
  if IntegerKind.signed64.holds n then some (.integer n, rest) else none

/-- A point and the digits behind it, or nothing. -/
def readFraction : List Char → Option (List Char × List Char)
  | '.' :: cs => readDigits Char.isDigit cs
  | cs => some ([], cs)

/-- An exponent after its letter. -/
def readExponent : List Char → Option (Int × List Char)
  | '-' :: cs => (readDigits Char.isDigit cs).map fun (ds, rest) => (-Decimal.ofDigits ds, rest)
  | '+' :: cs => (readDigits Char.isDigit cs).map fun (ds, rest) => (Decimal.ofDigits ds, rest)
  | cs => (readDigits Char.isDigit cs).map fun (ds, rest) => (Decimal.ofDigits ds, rest)

/-- An exponent with its letter, if there is one. -/
def readExponent? : List Char → Option (Option Int × List Char)
  | 'e' :: cs => (readExponent cs).map fun (e, rest) => (some e, rest)
  | 'E' :: cs => (readExponent cs).map fun (e, rest) => (some e, rest)
  | cs => some (none, cs)

/-- A decimal number after its sign: an integer unless it has a fraction or an exponent. -/
def readDecimal (negative : Bool) (cs : List Char) : Option (Value × List Char) := do
  let (whole, cs) ← readWhole cs
  let (fraction, cs) ← readFraction cs
  let (exponent, rest) ← readExponent? cs
  if fraction.isEmpty && exponent.isNone then
    let n : Int := if negative then -Decimal.ofDigits whole else Decimal.ofDigits whole
    if IntegerKind.signed64.holds n then some (.integer n, rest) else none
  else
    let literal : Decimal.Literal :=
      ⟨negative, Decimal.ofDigits (whole ++ fraction), exponent.getD 0 - fraction.length⟩
    let x : Binary .double := literal.toBinary
    if x.isInfinite && !negative then none else some (.float x, rest)

/-- A number after its sign, the words for the values without digits included. -/
def readMagnitude (negative : Bool) : List Char → Option (Value × List Char)
  | 'i' :: 'n' :: 'f' :: rest => some (.float (.infinity negative), rest)
  | 'n' :: 'a' :: 'n' :: rest => some (.float .nan, rest)
  | cs => readDecimal negative cs

/-- A number at the start of a text. -/
def readNumber : List Char → Option (Value × List Char)
  | '+' :: cs => readMagnitude false cs
  | '-' :: cs => readMagnitude true cs
  | '0' :: 'x' :: cs => readBased 16 cs
  | '0' :: 'o' :: cs => readBased 8 cs
  | '0' :: 'b' :: cs => readBased 2 cs
  | cs => readMagnitude false cs

end RenderKernel.Toml
