import RenderKernel.Code.Emitter

/-!
# Scripted emitters

An emitter that misbehaves on chosen calls, to see how its users cope.  All other calls go to
an executable memory whose mappings lie on the pages with the numbers of the calls.
-/

namespace RenderKernel.Code

/-- What a call does instead of emitting. -/
inductive Misbehaviour where
  /-- There is no memory. -/
  | allocation
  /-- The memory cannot be made executable. -/
  | protection
  /-- There is no executable memory. -/
  | unsupported
  /-- The call panics. -/
  | panic
  /-- The code is stored, but its region is said to have no bytes. -/
  | empty
deriving DecidableEq, Repr

/-- An emitter that follows a script. -/
structure Scripted where
  /-- The calls that misbehave, by their numbers from zero on. -/
  script : List (Nat × Misbehaviour) := []
  /-- How many calls there have been. -/
  calls : Nat := 0
  memory : Memory := {}
deriving DecidableEq, Repr

namespace Scripted

/-- Passes a call on to the memory. -/
def store (s : Scripted) (code : Bytes) : Logged (Except Fault Region × Scripted) := do
  let (answer, memory) ← s.memory.emit (.granted (s.calls + 1)) code
  return (answer, { s with calls := s.calls + 1, memory })

/-- Makes a region of some code, as the script says. -/
def emit (s : Scripted) (code : Bytes) : Logged (Ending (Except Fault Region) × Scripted) := do
  let failed : Scripted := { s with calls := s.calls + 1 }
  match s.script.lookup s.calls with
  | some .allocation => return (.done (.error (.allocation "out of pages")), failed)
  | some .protection => return (.done (.error (.protection "denied")), failed)
  | some .unsupported => return (.done (.error .unsupportedPlatform), failed)
  | some .panic => return (.panicked "scripted emitter panic", failed)
  | some .empty =>
    let (answer, s) ← s.store code
    return (.done (answer.map fun r => { r with code := [] }), s)
  | none =>
    let (answer, s) ← s.store code
    return (.done answer, s)

instance : Emitter Scripted where
  emit := emit
  release s id :=
    let (released, memory) := s.memory.release id
    (released, { s with memory })
  releaseAll s :=
    let (count, memory) := s.memory.releaseAll
    (count, { s with memory })
  liveRegions s := s.memory.liveRegions
  liveBytes s := s.memory.liveBytes

end Scripted

end RenderKernel.Code
