import RenderKernel.Code.Options
import RenderKernel.Processor.Feature.Json

/-!
# Options in JSON

The options are an object, of which members with other keys are ignored, or an array of the
options in their order, of which the last ones may be missing.  The first value that cannot be
used is reported, in the order of the keys or of the array.
-/

namespace RenderKernel.Code.Options

open Document Processor

/-- The features of a list. -/
def featuresOfJson : Json.Value → Except Mismatch (List Feature)
  | .array items => items.mapM Feature.ofJson
  | v => .error (.type v.found .list)

/-- A limit, if one is given. -/
def limitOfJson (v : Json.Value) : Except Mismatch (Option Nat) :=
  match v.found with
  | .null => .ok none
  | .integer (.ofNat n) => .ok (some n)
  | .integer (.negSucc n) => .error (.value (.integer (.negSucc n)) .count)
  | found => .error (.type found .count)

/-- Sets the option with a key, if there is one. -/
def setJson (o : Options) (member : String × Json.Value) : Except Mismatch Options := do
  match member.1 with
  | "required_features" => return { o with requiredFeatures := ← featuresOfJson member.2 }
  | "extra_features" => return { o with extraFeatures := ← featuresOfJson member.2 }
  | "max_live_regions" => return { o with maxLiveRegions := ← limitOfJson member.2 }
  | _ => return o

/-- The keys of the options, in their order. -/
def keys : List String := ["required_features", "extra_features", "max_live_regions"]

/-- The options that a value gives. -/
def ofJson : Json.Value → Except Mismatch Options
  | .object members => (Json.sortMembers members).foldlM setJson default
  | .array items => do
    let o ← (keys.zip items).foldlM setJson default
    if items.length ≤ keys.length then return o
    else throw (.length items.length .fewerOptions)
  | v => .error (.type v.found .options)

end RenderKernel.Code.Options
