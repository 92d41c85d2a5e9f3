import RenderKernel.Code.Options
import RenderKernel.Processor.Feature.Json
import RenderKernel.Toml.Found
import RenderKernel.Toml.Reader

/-!
# Options in TOML

The options are keys of the outermost table of a document, of which other keys are ignored.
A feature is a string, or a table whose only key is its spelling, with an empty array or table
as the value.
The whole document must be well formed; then the first value that cannot be used is reported,
in document order.
-/

namespace RenderKernel.Code

open Document Processor

/-- Why a document does not give options. -/
inductive ConfigFault where
  /-- The document is not well formed. -/
  | malformed
  /-- A feature is given neither by a string nor by a table that only names it. -/
  | unnamedFeature
  /-- A value is not the expected one. -/
  | mismatch (cause : Mismatch)

namespace ConfigFault

/-- The text that reports a fault of the options. -/
def message : String := "Invalid JIT configuration"

/-- What else is known about a fault. -/
def detail? : ConfigFault → Option String
  | .malformed => none
  | .unnamedFeature => none
  | .mismatch cause => some (cause.message (floatText Toml.messageLayout))

end ConfigFault

namespace Options

/-- The feature that the only key of a table names. -/
def featureOfEntries : Toml.Entries → Except ConfigFault Feature
  | [(key, value)] => do
    let f ← (Feature.ofName key).mapError .mismatch
    if value.isEmpty then return f else throw .unnamedFeature
  | _ => .error .unnamedFeature

/-- The feature that an item of a list names. -/
def featureOfToml : Toml.Value → Except ConfigFault Feature
  | .string s => (Feature.ofName s).mapError .mismatch
  | .table _ entries => featureOfEntries entries
  | _ => .error .unnamedFeature

/-- The features of a list; several tables with one header are a list of tables. -/
def featuresOfToml : Toml.Value → Except ConfigFault (List Feature)
  | .array items => items.mapM featureOfToml
  | .tables closed last => (closed ++ [last]).mapM featureOfEntries
  | v => .error (.mismatch (.type v.found .list))

/-- A limit. -/
def limitOfToml : Toml.Value → Except ConfigFault Nat
  | .integer (.ofNat n) => .ok n
  | .integer (.negSucc n) => .error (.mismatch (.value (.integer (.negSucc n)) .count))
  | v => .error (.mismatch (.type v.found .count))

/-- Sets the option with a key, if there is one. -/
def setToml (o : Options) (entry : String × Toml.Value) : Except ConfigFault Options := do
  match entry.1 with
  | "required_features" => return { o with requiredFeatures := ← featuresOfToml entry.2 }
  | "extra_features" => return { o with extraFeatures := ← featuresOfToml entry.2 }
  | "max_live_regions" => return { o with maxLiveRegions := some (← limitOfToml entry.2) }
  | _ => return o

/-- The options that a document gives. -/
def ofToml (text : String) : Except ConfigFault Options :=
  match Toml.readDocument text with
  | none => .error .malformed
  | some root => root.foldlM setToml default

end Options

end RenderKernel.Code
