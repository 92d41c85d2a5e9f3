/-!
# States of the code runtime

The runtime starts uninitialized, becomes ready once, and is shut down for good.
-/

namespace RenderKernel.Code

/-- A state of the code runtime. -/
inductive State where
  /-- The processor has not been verified yet. -/
  | uninitialized
  /-- The processor offers what is required. -/
  | ready
  /-- All code has been released. -/
  | shutDown
deriving DecidableEq, Repr

namespace State

/-- How far a state is along the life of the runtime. -/
def rank : State → Nat
  | .uninitialized => 0
  | .ready => 1
  | .shutDown => 2

instance : LE State := ⟨fun a b => a.rank ≤ b.rank⟩

instance : LT State := ⟨fun a b => a.rank < b.rank⟩

instance (a b : State) : Decidable (a ≤ b) := inferInstanceAs (Decidable (a.rank ≤ b.rank))

instance (a b : State) : Decidable (a < b) := inferInstanceAs (Decidable (a.rank < b.rank))

/-- The words for a state in messages. -/
def text : State → String
  | .uninitialized => "uninitialized"
  | .ready => "ready"
  | .shutDown => "shut down"

/-- The name of a state, as inspection shows it. -/
def label : State → String
  | .uninitialized => "Uninitialized"
  | .ready => "Ready"
  | .shutDown => "ShutDown"

end State

end RenderKernel.Code
