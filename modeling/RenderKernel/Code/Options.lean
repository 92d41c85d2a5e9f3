import RenderKernel.Json.Writer
import RenderKernel.Processor.Feature

/-!
# Options of the code runtime

Which features the processor must offer, and how many code regions may be live at a time.
-/

namespace RenderKernel.Code

open Processor

/-- The options with which the code runtime is brought up. -/
structure Options where
  /-- The features that code relies on. -/
  requiredFeatures : List Feature := Feature.baseline
  /-- Features that are required besides. -/
  extraFeatures : List Feature := []
  /-- The greatest number of regions that may be live, if there is one. -/
  maxLiveRegions : Option Nat := none
deriving DecidableEq, Repr

namespace Options

/-- The options of an empty document. -/
def default : Options := {}

/-- Every feature that the processor must offer, ascending and once each. -/
def required (o : Options) : List Feature :=
  ((o.requiredFeatures ++ o.extraFeatures).mergeSort fun f g => f ≤ g).eraseReps

/-! ### Texts -/

/-- A limit, as inspection shows it. -/
def limitText : Option Nat → String
  | none => "None"
  | some n => "Some(" ++ toString n ++ ")"

/-- Features, as inspection shows them. -/
def labels (fs : List Feature) : String := "[" ++ ", ".intercalate (fs.map Feature.label) ++ "]"

/-- The options, as inspection shows them. -/
def full (o : Options) : String :=
  "JitOptions \x7b required_features: " ++ labels o.requiredFeatures ++ ", extra_features: "
    ++ labels o.extraFeatures ++ ", max_live_regions: " ++ limitText o.maxLiveRegions ++ " \x7d"

/-- A list of features in JSON. -/
def featuresToJson (fs : List Feature) : Json.Value := .array (fs.map fun f => .string f.name)

/-- The options in JSON. -/
def toJson (o : Options) : Json.Value :=
  .object [
    ("required_features", featuresToJson o.requiredFeatures),
    ("extra_features", featuresToJson o.extraFeatures),
    ("max_live_regions",
      match o.maxLiveRegions with
      | none => .null
      | some n => .number (.ofInt n))]

/-- A list of features in TOML. -/
def featuresToToml (fs : List Feature) : String :=
  "[" ++ ", ".intercalate (fs.map fun f => "\"" ++ f.name ++ "\"") ++ "]"

/-- The options in TOML, a line for each that is set.  A limit beyond the integers of the
format cannot be written. -/
def toToml? (o : Options) : Option String :=
  let features :=
    "required_features = " ++ featuresToToml o.requiredFeatures ++ "\nextra_features = "
      ++ featuresToToml o.extraFeatures ++ "\n"
  match o.maxLiveRegions with
  | none => some features
  | some n =>
    if IntegerKind.signed64.holds n then
      some (features ++ "max_live_regions = " ++ toString n ++ "\n")
    else
      none

end Options

end RenderKernel.Code
