import RenderKernel.Document.Mismatch
import RenderKernel.Json.Reader
import RenderKernel.Number.Integer

/-!
# Numbers in JSON

How the numbers of geometry are written in the data format and read from it.  A finite
floating-point number is written as the shortest decimal that reads back, any other as `null`;
every number is read into its own format.  Reading stops at the first fault of the document, in
document order.
-/

namespace RenderKernel.Json

open Document

/-- Why a document cannot be read as a value of some type. -/
inductive ReadFault where
  /-- The document is not well formed, or a number is out of range. -/
  | malformed
  /-- A value is not the expected one. -/
  | mismatch (cause : Mismatch)
deriving DecidableEq

/-- The floating-point number that a number which is not an integer stands for. -/
def Number.found (n : Number) : Except ReadFault Found :=
  match n.asInteger? with
  | some i => .ok (.integer i)
  | none =>
    let x : Binary .double := n.toBinary
    if x.isInfinite then .error .malformed else .ok (.floating x)

/-- What stands at the start of a text that has no leading blanks, looked at only as far as is
needed to name it. -/
def foundAt (cs : List Char) : Except ReadFault Found :=
  match cs with
  | '[' :: _ => .ok .sequence
  | '\x7b' :: _ => .ok .map
  | 'n' :: cs => if (expectWord ['u', 'l', 'l'] cs).isSome then .ok .null else .error .malformed
  | 't' :: cs =>
    if (expectWord ['r', 'u', 'e'] cs).isSome then .ok (.boolean true) else .error .malformed
  | 'f' :: cs =>
    if (expectWord ['a', 'l', 's', 'e'] cs).isSome then .ok (.boolean false) else .error .malformed
  | '"' :: cs =>
    match readString cs with
    | some (s, _) => .ok (.string s)
    | none => .error .malformed
  | cs =>
    match readNumber cs with
    | some (n, _) => n.found
    | none => .error .malformed

/-- Fails because of what stands at the start of a text. -/
def unexpected {α : Type} (expected : Expectation) (cs : List Char) : Except ReadFault α := do
  throw (.mismatch (.type (← foundAt cs) expected))

/-- Kinds of numbers that the data format can hold. -/
class Scalar (V : Type) where
  /-- The name of the kind in messages. -/
  name : String
  /-- The text of a number. -/
  text : V → List Char
  /-- The number that a number of a document is read as. -/
  ofNumber : Number → Except ReadFault V

/-- A number of a kind at the start of a text. -/
def readScalar {V : Type} [Scalar V] (cs : List Char) : Except ReadFault (V × List Char) :=
  let cs := skipBlanks cs
  match cs with
  | [] => .error .malformed
  | c :: _ =>
    if c = '-' ∨ c.isDigit then
      match readNumber cs with
      | some (n, rest) => (Scalar.ofNumber n).map fun x => (x, rest)
      | none => .error .malformed
    else
      unexpected (.scalar (Scalar.name V)) cs

/-- The text of a floating-point number in a layout. -/
def floatText {f : Format} (layout : Decimal.Layout) (x : Binary f) : List Char :=
  if x.isFinite then layout.finiteText x else ['n', 'u', 'l', 'l']

/-- A number read into a floating-point format; out of range, it does not count as a number. -/
def floatOfNumber {f : Format} (n : Number) : Except ReadFault (Binary f) :=
  let x : Binary f := n.toBinary
  if x.isInfinite then .error .malformed else .ok x

instance : Scalar (Binary .single) where
  name := "f32"
  text := floatText Number.singleLayout
  ofNumber := floatOfNumber

instance : Scalar (Binary .double) where
  name := "f64"
  text := floatText Number.doubleLayout
  ofNumber := floatOfNumber

/-- The name of a kind of integers: a letter for its sign, and its width. -/
def integerName (k : IntegerKind) : String := (if k.signed then "i" else "u") ++ toString k.bits

/-- The digits of an integer behind its sign. -/
def integerText (n : Int) : List Char :=
  if n < 0 then '-' :: Decimal.plain n.natAbs else Decimal.plain n.natAbs

instance (k : IntegerKind) : Scalar (Bounded k) where
  name := integerName k
  text x := integerText x.val
  ofNumber n :=
    match n.asInteger? with
    | some i =>
      match Bounded.ofInt? i with
      | some x => .ok x
      | none => .error (.mismatch (.value (.integer i) (.scalar (integerName k))))
    | none => do throw (.mismatch (.type (← n.found) (.scalar (integerName k))))

/-- The text that reports a mismatch in a document of this format. -/
def mismatchMessage (cause : Mismatch) : String :=
  cause.message (Document.floatText Number.doubleLayout)

end RenderKernel.Json
