import RenderKernel.Code.Emitter

/-!
# Sessions

A session is a sequence of operations on an emitter that nothing interrupts.  What it does
next may depend on the answers so far, and it may panic at any point; operations carried out
before that stay carried out.  Emissions of a session respect the limit of live regions, if
there is one.
-/

namespace RenderKernel.Code

/-- A sequence of operations on an emitter, with a result. -/
inductive Session (α : Type) where
  | done (a : α)
  | panic (text : String)
  | emit (code : Bytes) (next : Except Fault Region → Session α)
  | release (id : RegionId) (next : Bool → Session α)
  | releaseAll (next : Nat → Session α)
  /-- Asks for the numbers of live regions and of their bytes. -/
  | live (next : Nat → Nat → Session α)

/-- The answer to an operation. -/
inductive Reply where
  | emitted (answer : Except Fault Region)
  | released (wasLive : Bool)
  | releasedAll (count : Nat)
  | live (regions bytes : Nat)

/-- What came of a session: the answers to its operations, how it ended, and the emitter that
it left behind. -/
structure Course (E α : Type) where
  replies : List Reply
  ending : Ending α
  emitter : E

variable {E α : Type} [Emitter E]

/-- The record of an emission that the limit forbids. -/
def refusedRecord (limit : Nat) : LogRecord :=
  ⟨.warn, "refusing to emit code: " ++ toString limit ++ " regions already live"⟩

/-- The record of a new region. -/
def emittedRecord (r : Region) : LogRecord :=
  ⟨.debug, "emitted code region " ++ r.id.full ++ " (" ++ toString r.length ++ " bytes)"⟩

/-- What is recorded of an emission. -/
def emissionRecords : Ending (Except Fault Region) → List LogRecord
  | .done (.ok r) => [emittedRecord r]
  | _ => []

/-- Makes a region of some code, unless as many regions are live as may be. -/
def emitWithin (limit : Option Nat) (e : E) (code : Bytes) :
    Logged (Ending (Except Fault Region) × E) :=
  match limit with
  | none => unlimited
  | some limit =>
    if limit ≤ Emitter.liveRegions e then
      ⟨(.done (.error (.regionLimit limit)), e), [refusedRecord limit]⟩
    else
      unlimited
where
  unlimited : Logged (Ending (Except Fault Region) × E) := do
    let (answer, e) ← Emitter.emit e code
    Logged.logAll (emissionRecords answer)
    return (answer, e)

/-- The course with an answer before those of the rest. -/
def Course.after (reply : Reply) (c : Course E α) : Course E α :=
  { c with replies := reply :: c.replies }

/-- Carries out a session. -/
def Session.run (limit : Option Nat) : Session α → E → Logged (Course E α)
  | .done a, e => return ⟨[], .done a, e⟩
  | .panic text, e => return ⟨[], .panicked text, e⟩
  | .emit code next, e => do
    let (answer, e) ← emitWithin limit e code
    match answer with
    | .done answer => return (← (next answer).run limit e).after (.emitted answer)
    | .panicked text => return ⟨[], .panicked text, e⟩
  | .release id next, e => do
    let (wasLive, e) := Emitter.release e id
    return (← (next wasLive).run limit e).after (.released wasLive)
  | .releaseAll next, e => do
    let (count, e) := Emitter.releaseAll e
    return (← (next count).run limit e).after (.releasedAll count)
  | .live next, e => do
    let regions := Emitter.liveRegions e
    let bytes := Emitter.liveBytes e
    return (← (next regions bytes).run limit e).after (.live regions bytes)

end RenderKernel.Code
