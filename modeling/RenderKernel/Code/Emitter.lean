import RenderKernel.Code.Memory

/-!
# Emitters

An emitter turns machine code into regions, and releases them.  It may fail, and it may panic
instead of giving an answer.  `HostedMemory` is the executable memory together with the host
that provides its mappings, given by its answers.
-/

namespace RenderKernel.Code

/-- How a computation ends. -/
inductive Ending (α : Type) where
  | done (a : α)
  | panicked (text : String)
deriving DecidableEq, Repr

/-- Things that turn machine code into regions. -/
class Emitter (E : Type) where
  /-- Makes a region of some code. -/
  emit : E → Bytes → Logged (Ending (Except Fault Region) × E)
  /-- Releases a region, and tells whether it was live. -/
  release : E → RegionId → Bool × E
  /-- Releases every region, and tells how many there were. -/
  releaseAll : E → Nat × E
  /-- How many regions are live. -/
  liveRegions : E → Nat
  /-- How many bytes the live regions have. -/
  liveBytes : E → Nat

/-! ### Executable memory -/

/-- An executable memory and its host. -/
structure HostedMemory where
  /-- The answer to each request for a mapping, by its number. -/
  host : Nat → Placement
  /-- How many mappings have been asked for. -/
  requests : Nat := 0
  memory : Memory := {}

namespace HostedMemory

/-- Makes a region of some code.  The host is asked only if there is code. -/
def emit (e : HostedMemory) (code : Bytes) :
    Logged (Ending (Except Fault Region) × HostedMemory) := do
  let (answer, memory) ← e.memory.emit (e.host e.requests) code
  let requests := if code.isEmpty then e.requests else e.requests + 1
  return (.done answer, { e with requests, memory })

instance : Emitter HostedMemory where
  emit := emit
  release e id :=
    let (released, memory) := e.memory.release id
    (released, { e with memory })
  releaseAll e :=
    let (count, memory) := e.memory.releaseAll
    (count, { e with memory })
  liveRegions e := e.memory.liveRegions
  liveBytes e := e.memory.liveBytes

/-- A host with ample room: it always has memory, and mappings lie far apart. -/
def roomyHost (request : Nat) : Placement := .granted (1048576 * (request + 1))

/-- A fresh memory whose host has ample room. -/
def roomy : HostedMemory := { host := roomyHost }

end HostedMemory

/-! ### Two kinds of emitters -/

instance {E F : Type} [Emitter E] [Emitter F] : Emitter (E ⊕ F) where
  emit
    | .inl e, code => do
      let (answer, e) ← Emitter.emit e code
      return (answer, .inl e)
    | .inr f, code => do
      let (answer, f) ← Emitter.emit f code
      return (answer, .inr f)
  release
    | .inl e, id =>
      let (released, e) := Emitter.release e id
      (released, .inl e)
    | .inr f, id =>
      let (released, f) := Emitter.release f id
      (released, .inr f)
  releaseAll
    | .inl e =>
      let (count, e) := Emitter.releaseAll e
      (count, .inl e)
    | .inr f =>
      let (count, f) := Emitter.releaseAll f
      (count, .inr f)
  liveRegions
    | .inl e => Emitter.liveRegions e
    | .inr f => Emitter.liveRegions f
  liveBytes
    | .inl e => Emitter.liveBytes e
    | .inr f => Emitter.liveBytes f

end RenderKernel.Code
