import RenderKernel.Decimal.Layout
import RenderKernel.Text.Quoted

/-!
# Values that are not the expected ones

A reader of a document that meets a well-formed value which it cannot use reports a
`Mismatch`: what it found (`Found`) and what it expected (`Expectation`).  The wording is
shared by the data formats; only floating-point numbers are shown as the format at hand
writes them.
-/

namespace RenderKernel.Document

/-- What was found in a document. -/
inductive Found where
  | integer (n : Int)
  | floating (x : Binary .double)
  | boolean (b : Bool)
  | string (s : String)
  | null
  | sequence
  | map
deriving DecidableEq

/-- What a reader expected. -/
inductive Expectation where
  /-- A number of the kind with this name. -/
  | scalar (name : String)
  /-- The components of a geometric quantity. -/
  | components
  /-- A natural number of 64 bits. -/
  | count
  /-- A list. -/
  | list
  /-- The options of the code runtime. -/
  | options
  /-- A list of at most as many values as there are options. -/
  | fewerOptions
  /-- The name of a processor feature, alone or as the key of a map. -/
  | featureName
  /-- A map with one key. -/
  | singleKey
  /-- No value. -/
  | nothing
deriving DecidableEq, Repr

/-- The words for an expectation. -/
def Expectation.name : Expectation → String
  | .scalar name => name
  | .components => "a matrix array"
  | .count => "usize"
  | .list => "a sequence"
  | .options => "struct JitOptions"
  | .fewerOptions => "fewer elements in array"
  | .featureName => "string or map"
  | .singleKey => "map with a single key"
  | .nothing => "unit"

/-- Why a well-formed value cannot be used. -/
inductive Mismatch where
  /-- The value is of another type. -/
  | type (found : Found) (expected : Expectation)
  /-- The value is of the right type but out of range. -/
  | value (found : Found) (expected : Expectation)
  /-- The list has another length. -/
  | length (count : Nat) (expected : Expectation)
  /-- The name is none of the known ones. -/
  | unknownName (name : String) (known : List String)
deriving DecidableEq

/-- A text between back quotes. -/
def backquoted (s : String) : String := "\x60" ++ s ++ "\x60"

/-- The words for what was found; `float` writes floating-point numbers. -/
def Found.name (float : Binary .double → String) : Found → String
  | .integer n => "integer " ++ backquoted (toString n)
  | .floating x => "floating point " ++ backquoted (float x)
  | .boolean b => "boolean " ++ backquoted (toString b)
  | .string s => "string " ++ Text.quoted s
  | .null => "null"
  | .sequence => "sequence"
  | .map => "map"

/-- The text that reports a mismatch; `float` writes floating-point numbers. -/
def Mismatch.message (float : Binary .double → String) : Mismatch → String
  | .type found expected => "invalid type: " ++ found.name float ++ ", expected " ++ expected.name
  | .value found expected => "invalid value: " ++ found.name float ++ ", expected " ++ expected.name
  | .length count expected =>
    "invalid length " ++ toString count ++ ", expected " ++ expected.name
  | .unknownName name known =>
    "unknown variant " ++ backquoted name ++ ", expected one of "
      ++ ", ".intercalate (known.map backquoted)

/-- A floating-point number in a layout; the patterns without digits are spelled out. -/
def floatText (layout : Decimal.Layout) (x : Binary .double) : String :=
  if x.isNaN then "NaN"
  else if x.isInfinite then if x.negative then "-inf" else "inf"
  else String.ofList (layout.finiteText x)

end RenderKernel.Document
