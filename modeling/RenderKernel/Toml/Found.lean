import RenderKernel.Document.Mismatch
import RenderKernel.Toml.Value

/-!
# Values of TOML in messages

What a value of the configuration format is called when another one was expected.
-/

namespace RenderKernel.Toml

open Document

/-- What a value is called.  Dates and times count as tables. -/
def Value.found : Value → Found
  | .string s => .string s
  | .integer n => .integer n
  | .float x => .floating x
  | .boolean b => .boolean b
  | .moment _ => .map
  | .array _ => .sequence
  | .table _ _ => .map
  | .tables _ _ => .sequence

/-- Messages show floating-point numbers positionally. -/
def messageLayout : Decimal.Layout where
  positional _ := true
  plus := false
  tie := .up

end RenderKernel.Toml
