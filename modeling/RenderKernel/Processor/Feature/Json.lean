import RenderKernel.Json.Found
import RenderKernel.Processor.Feature

/-!
# Processor features in JSON

A feature is given by a spelling, or by an object whose only key is the spelling and whose
value is `null`.  The number of keys is looked at first, then the key, then the value.
-/

namespace RenderKernel.Processor.Feature

open Document

/-- The feature with a spelling. -/
def ofName (s : String) : Except Mismatch Feature :=
  match ofName? s with
  | some f => .ok f
  | none => .error (.unknownName s knownNames)

/-- The feature that a value gives. -/
def ofJson : Json.Value → Except Mismatch Feature
  | .string s => ofName s
  | .object members =>
    match Json.sortMembers members with
    | [(key, value)] => do
      let f ← ofName key
      match value with
      | .null => return f
      | value => throw (.type value.found .nothing)
    | _ => .error (.value .map .singleKey)
  | v => .error (.type v.found .featureName)

end RenderKernel.Processor.Feature
