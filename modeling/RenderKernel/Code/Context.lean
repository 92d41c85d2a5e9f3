import RenderKernel.Code.Options
import RenderKernel.Code.Session

/-!
# Contexts of code generation

A context is what all users of the code runtime share: an emitter, the limit of live regions,
and whether it has been retired.  A retired context emits nothing any more.
-/

namespace RenderKernel.Code

/-- A shared emitter. -/
structure Context (E : Type) where
  emitter : E
  maxLiveRegions : Option Nat
  retired : Bool := false

namespace Context

variable {E α : Type} [Emitter E]

/-- Carries out a session on the emitter, unless the context is retired. -/
def withEmitter (c : Context E) (s : Session α) :
    Logged (Except Fault (Course E α) × Context E) := do
  if c.retired then
    return (.error (.notReady .shutDown), c)
  else
    let course ← s.run c.maxLiveRegions c.emitter
    return (.ok course, { c with emitter := course.emitter })

/-- Makes a region of some code. -/
def emit (c : Context E) (code : Bytes) :
    Logged (Ending (Except Fault Region) × Context E) := do
  let (answer, c) ← c.withEmitter (.emit code .done)
  match answer with
  | .ok course => return (course.ending, c)
  | .error fault => return (.done (.error fault), c)

/-- The record of a release. -/
def releasedRecord (id : RegionId) (wasLive : Bool) : LogRecord :=
  ⟨.debug, "released code region " ++ id.full ++ ": " ++ toString wasLive⟩

/-- Releases a region, and tells whether it was live. -/
def release (c : Context E) (id : RegionId) : Logged (Bool × Context E) :=
  let (wasLive, emitter) := Emitter.release c.emitter id
  ⟨(wasLive, { c with emitter }), [releasedRecord id wasLive]⟩

/-- How many regions are live. -/
def liveRegions (c : Context E) : Nat := Emitter.liveRegions c.emitter

/-- How many bytes the live regions have. -/
def liveBytes (c : Context E) : Nat := Emitter.liveBytes c.emitter

/-- Releases every region for good, and tells how many there were. -/
def retire (c : Context E) : Nat × Context E :=
  let (count, emitter) := Emitter.releaseAll c.emitter
  (count, { c with emitter, retired := true })

/-- A context, as inspection shows it. -/
def full (c : Context E) : String :=
  "Jit \x7b max_live_regions: " ++ Options.limitText c.maxLiveRegions ++ ", retired: "
    ++ toString c.retired ++ ", .. \x7d"

end Context

end RenderKernel.Code
