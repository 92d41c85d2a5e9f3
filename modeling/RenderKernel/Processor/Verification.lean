import RenderKernel.Log
import RenderKernel.Processor.Feature

/-!
# Verification of a processor

Required features are looked for one after another, and every one that is missing is reported,
not only the first.
-/

namespace RenderKernel.Processor

/-- The features that a processor was found to lack. -/
structure Lacking where
  missing : List Feature
deriving DecidableEq, Repr

/-- The text that reports missing features. -/
def Lacking.message (e : Lacking) : String :=
  "Host processor lacks required instruction set extensions: "
    ++ ", ".intercalate (e.missing.map Feature.name)

/-- A processor, by what it offers. -/
abbrev Detector := Feature → Bool

/-- The processor on which only the baseline is taken for granted. -/
def baselineProcessor : Detector := Feature.isBaseline

/-- The record of looking for one feature. -/
def probeRecord (offers : Detector) (f : Feature) : LogRecord :=
  ⟨.debug, "cpu feature " ++ f.name ++ if offers f then " present" else " MISSING"⟩

/-- Looks for required features in the order given. -/
def verify (offers : Detector) (required : List Feature) : Logged (Except Lacking Unit) where
  value :=
    let missing := required.filter (!offers ·)
    if missing.isEmpty then .ok () else .error ⟨missing⟩
  records := required.map (probeRecord offers)

end RenderKernel.Processor
