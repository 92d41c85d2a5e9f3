import RenderKernel.Proofs.Code.Program

/-!
# Callers who come in between

When several callers share a runtime, others may come in between the two steps in which a caller
is given a lease.  The second step then fails not only for a caller who finds the runtime shut
down, but also for one during whose wait it is shut down.
-/

namespace RenderKernel.Code

open Processor

/-- A program with any number of callers. -/
structure Crowd (E : Type) where
  program : Program E
  /-- Who is between the two steps of being given a lease, and whether it will own the
  runtime. -/
  waiting : Nat → Option Bool := fun _ => none

/-- What a caller can do, with the answer. -/
inductive Move : Type 1
  /-- The first step of being given a lease. -/
  | enter (caller : Nat) (o : Options)
  /-- The second step. -/
  | grant (caller : Nat) (lease : Lease)
  | ask (request : Request) (response : Response)

/-- Whether a move shuts the runtime down. -/
def Move.closes : Move → Bool
  | .ask request response => Program.closes request response
  | _ => false

namespace Crowd

variable {E : Type} [Emitter E]

/-- A move that does not abort the program. -/
inductive Step : Crowd E → Move → Crowd E → Prop
  | enter {c : Crowd E} {caller : Nat} {o : Options} {owner : Bool} {runtime : Lifecycle E}
      (hidle : c.waiting caller = none)
      (hstep : (c.program.runtime.ownership o).value = (.ok owner, runtime)) :
    Step c (.enter caller o)
      { program := { c.program with runtime }
        waiting := Function.update c.waiting caller (some owner) }
  | grant {c : Crowd E} {caller : Nat} {owner : Bool} {lease : Lease} {runtime : Lifecycle E}
      (hwaiting : c.waiting caller = some owner)
      (hstep : (c.program.runtime.grant owner).value = (.ok lease, runtime)) :
    Step c (.grant caller lease)
      { program := { c.program with runtime, leases := c.program.leases ++ [lease] }
        waiting := Function.update c.waiting caller none }
  | ask {c : Crowd E} {request : Request} {response : Response} {program : Program E}
      (hlease : ∀ o, request ≠ .lease o)
      (hstep : (c.program.perform request).value = (.ok response, program)) :
    Step c (.ask request response) { c with program }

/-- Moves, one after another, the last one at the end. -/
inductive Run (c : Crowd E) : List Move → Crowd E → Prop
  | start : Run c [] c
  | move {moves : List Move} {c₁ c₂ : Crowd E} {move : Move} (hrun : Run c moves c₁)
      (hstep : Step c₁ move c₂) :
    Run c (moves ++ [move]) c₂

/-- The second step of a caller who is waiting would abort the program. -/
def Fails (c : Crowd E) (caller : Nat) : Prop :=
  ∃ owner abort, c.waiting caller = some owner
    ∧ (c.program.runtime.grant owner).value.1 = .error abort

/-- The state of the runtime that the callers share. -/
def state (c : Crowd E) : State := c.program.runtime.state

variable {c c' c₁ c₂ c₃ : Crowd E} {caller : Nat} {o : Options} {owner : Bool} {move : Move}
  {moves : List Move}

/-! ### What moves do -/

/-- Once the runtime has been brought up, moves leave its state, or shut it down. -/
theorem Step.state_eq (h : Step c move c') (hstate : c.state ≠ .uninitialized) :
  c'.state = if move.closes then .shutDown else c.state
  := by
  cases h with
  | enter hidle hstep =>
      rw [Lifecycle.ownership_of_ne_uninitialized hstate] at hstep
      obtain ⟨rfl, rfl⟩ := hstep
      rfl
  | grant hwaiting hstep => exact Lifecycle.state_of_grant hstep
  | ask hlease hstep => exact (Program.Turn.of_perform hstep).state_eq hlease

/-- A caller waits until the second step, since nobody enters while waiting or moves on behalf of
another caller. -/
theorem Step.waiting_eq (h : Step c move c') (hwaiting : c.waiting caller = some owner)
    (hmove : ∀ lease, move ≠ .grant caller lease) :
  c'.waiting caller = some owner
  := by
  cases h with
  | @enter other o' owner' runtime hidle =>
      have hother : caller ≠ other := by
        rintro rfl
        cases hwaiting.symm.trans hidle
      exact (Function.update_of_ne hother _ _).trans hwaiting
  | @grant other owner' lease =>
      have hother : caller ≠ other := by
        rintro rfl
        exact hmove lease rfl
      exact (Function.update_of_ne hother _ _).trans hwaiting
  | ask => exact hwaiting

/-- A caller who enters waits, with the runtime ready unless it was shut down. -/
theorem Step.entered (h : Step c (.enter caller o) c') :
  (∃ owner, c'.waiting caller = some owner)
    ∧ c'.state = if c.state = .shutDown then .shutDown else .ready
  := by
  cases h with
  | @enter _ _ owner runtime hidle hstep =>
      exact ⟨⟨owner, Function.update_self _ _ _⟩, Lifecycle.state_of_ownership hstep⟩

/-! ### Runs -/

/-- Once the runtime was brought up it is never uninitialized again, so that only a move that closes it
changes its state. -/
theorem Run.state_eq (hrun : Run c moves c') (hstate : c.state ≠ .uninitialized) :
  c'.state = if moves.any Move.closes then .shutDown else c.state
  := by
  induction hrun with
  | start => rfl
  | @move moves c₁ c₂ move hrun hstep ih =>
      have hstate₁ : c₁.state ≠ .uninitialized := by
        rw [ih]
        split
        · decide
        · exact hstate
      rw [hstep.state_eq hstate₁, ih, List.any_append, List.any_cons, List.any_nil,
        Bool.or_false]
      cases move.closes with
      | true => simp
      | false => simp

/-- A caller waits until a run lets it make the second step. -/
theorem Run.waiting_eq (hrun : Run c moves c') (hwaiting : c.waiting caller = some owner)
    (hmoves : ∀ lease, .grant caller lease ∉ moves) :
  c'.waiting caller = some owner
  := by
  induction hrun with
  | start => exact hwaiting
  | move hrun hstep ih =>
      apply hstep.waiting_eq
      · apply ih
        intro lease hmem
        exact hmoves lease (List.mem_append_left _ hmem)
      · rintro lease rfl
        exact hmoves lease (List.mem_append_right _ (List.mem_singleton_self _))

/-- The second step fails exactly if the runtime is not ready. -/
theorem fails_iff_of_waiting (hwaiting : c.waiting caller = some owner) :
  c.Fails caller ↔ c.state ≠ .ready
  := by
  apply Iff.trans _ (c.program.runtime.grant_aborts_iff owner)
  constructor
  · rintro ⟨owner', abort, hwaiting', hgrant⟩
    obtain rfl := Option.some.inj (hwaiting.symm.trans hwaiting')
    exact ⟨abort, hgrant⟩
  · rintro ⟨abort, hgrant⟩
    exact ⟨owner, abort, hwaiting, hgrant⟩

/-- A caller who has entered fails exactly if the runtime was shut down before, or is shut down
while the caller is waiting. -/
theorem Run.fails_iff (henter : Step c₁ (.enter caller o) c₂) (hrun : Run c₂ moves c₃)
    (hmoves : ∀ lease, .grant caller lease ∉ moves) :
  c₃.Fails caller ↔ c₁.state = .shutDown ∨ ∃ move ∈ moves, move.closes = true
  := by
  obtain ⟨⟨owner, hwaiting⟩, hentered⟩ := henter.entered
  have hstate : c₂.state ≠ .uninitialized := by
    rw [hentered]
    split
    · decide
    · decide
  rw [fails_iff_of_waiting (hrun.waiting_eq hwaiting hmoves), hrun.state_eq hstate, hentered,
    ← List.any_eq_true]
  by_cases hclosed : c₁.state = .shutDown
  · simp [hclosed]
  · cases moves.any Move.closes <;> simp [hclosed]

/-- A crowd of which one caller has entered. -/
def newcomer : Crowd HostedMemory :=
  { program := { runtime := { Lifecycle.ofProgram with state := .ready, options := some {} } }
    waiting := Function.update (fun _ => none) 0 (some true) }

/-- The first caller enters a new runtime and waits. -/
theorem step_newcomer :
  Step { program := { runtime := .ofProgram } } (.enter 0 {}) newcomer
  := .enter rfl (by cbv)

/-- The moves of others who come in between: one is given a lease, and one shuts the runtime
down. -/
def intrusion : List Move := [.enter 1 {}, .grant 1 ⟨0, false⟩, .ask .shutdown .shutDown]

/-- Another caller shuts the runtime down while the first one waits, who fails although the runtime was
not shut down at the first step. -/
theorem intrusion_fails_iff :
  ∃ c : Crowd HostedMemory, Step { program := { runtime := .ofProgram } } (.enter 0 {}) newcomer
    ∧ Run newcomer intrusion c ∧ (∀ lease, .grant 0 lease ∉ intrusion)
    ∧ (c.Fails 0
      ↔ Lifecycle.ofProgram.state = .shutDown ∨ ∃ move ∈ intrusion, move.closes = true)
  := by
  have hrun : Run newcomer intrusion _ := Run.start.move (.enter rfl rfl) |>.move (.grant rfl rfl)
    |>.move (.ask (by simp) rfl)
  have hmoves : ∀ lease, .grant 0 lease ∉ intrusion := by
    simp [intrusion]
  refine ⟨_, step_newcomer, hrun, hmoves, ?_⟩
  apply Run.fails_iff step_newcomer hrun hmoves

/-- A caller who finds the runtime open may fail nevertheless. -/
theorem not_fails_only_if_shutDown :
  ¬∀ (caller : Nat) (o : Options) (history moves : List Move) (c₁ c₂ c₃ : Crowd HostedMemory),
    Run { program := { runtime := .ofProgram } } history c₁ → Step c₁ (.enter caller o) c₂ →
      Run c₂ moves c₃ → (∀ lease, .grant caller lease ∉ moves) → c₃.Fails caller →
        c₁.state = .shutDown
  := by
  intro honly
  have hrun : Run newcomer [.ask .shutdown .shutDown] _ := Run.start.move (.ask (by simp) rfl)
  have hstate := honly 0 {} _ _ _ _ _ .start step_newcomer hrun (by simp) ⟨true, _, rfl, rfl⟩
  cases hstate

end Crowd

end RenderKernel.Code
