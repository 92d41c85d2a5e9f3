import RenderKernel.Code.Lifecycle
import RenderKernel.Proofs.Code.Context

/-!
# Calls to the code runtime

Everything that the users of the runtime do is a sequence of calls, each of them undivided.
Contexts stay known once they were created, and what becomes of one in any number of calls is
what becomes of it in steps of its own (`Lifecycle.context_afterAll`).
-/

namespace RenderKernel.Code

open Processor

/-- What the users of the runtime can ask for.  Contexts are asked by their numbers. -/
inductive Call : Type 1
  | bringUp (o : Options)
  | acquire
  | shutdown
  | emit (number : Nat) (code : Bytes)
  | release (number : Nat) (id : RegionId)
  | withEmitter {α : Type} (number : Nat) (s : Session α)
  | live (number : Nat)

/-- What a call is answered. -/
inductive Answer
  | broughtUp (answer : Except Lacking Bool)
  | acquired (answer : Except Fault Nat)
  | shutDown (count : Nat)
  | emitted (answer : Ending (Except Fault Region))
  | released (wasLive : Bool)
  | carriedOut (answer : Except Fault (List Reply))
  | live (regions bytes : Nat)
  /-- No context has the number. -/
  | unknown

variable {E : Type}

/-! ### Creation of contexts -/

namespace Lifecycle

variable {l : Lifecycle E} {n : Nat} {c : Context E}

/-- Bringing the runtime up makes no context. -/
theorem contexts_bringUp (l : Lifecycle E) (o : Options) :
  (l.bringUp o).value.2.contexts = l.contexts
  := by
  rw [bringUp]
  split
  · rfl
  · rfl
  · rw [Logged.value_bind]
    split
    · rfl
    · rfl

/-- Acquiring a context leaves those that there are. -/
theorem context_acquire (hc : l.contexts[n]? = some c) :
  l.acquire.value.2.contexts[n]? = some c
  := by
  rw [acquire]
  split
  · apply hc
  · split
    · apply hc
    · apply (List.getElem?_append_left _).trans hc
      apply (List.getElem?_eq_some_iff.mp hc).1

/-- A context that is created has the fresh emitter and the limit of the options. -/
theorem context_acquire_of_none {l' : Lifecycle E} (hcurrent : l.current = none)
    (h : l.acquire.value = (.ok n, l')) :
  l'.contexts[n]? = some { emitter := l.fresh, maxLiveRegions := l.options.bind (·.maxLiveRegions) }
  := by
  rw [acquire] at h
  split at h
  · cases h
  · rw [hcurrent] at h
    cases h
    apply List.getElem?_concat_length

/-! ### Carrying out calls -/

/-- Asks a context, if there is one with the number. -/
def ask {α : Type} (l : Lifecycle E) (number : Nat)
    (operation : Context E → Logged (α × Context E)) (answer : α → Answer) :
    Logged (Answer × Lifecycle E) :=
  match l.onContext number operation with
  | some result => do
    let (a, l) ← result
    return (answer a, l)
  | none => return (.unknown, l)

/-- Asking a context that there is changes it alone. -/
theorem ask_of_some {α : Type} (hc : l.contexts[n]? = some c)
    (operation : Context E → Logged (α × Context E)) (answer : α → Answer) :
  (l.ask n operation answer).value
    = (answer (operation c).value.1, { l with contexts := l.contexts.set n (operation c).value.2 })
  := by
  rw [ask, onContext, hc]
  rfl

/-- Asking a context that there is not changes nothing. -/
theorem ask_of_none {α : Type} (hc : l.contexts[n]? = none)
    (operation : Context E → Logged (α × Context E)) (answer : α → Answer) :
  (l.ask n operation answer).value = (.unknown, l)
  := by
  rw [ask, onContext, hc]
  rfl

variable [Emitter E]

/-- Carries out a call. -/
def perform (l : Lifecycle E) : Call → Logged (Answer × Lifecycle E)
  | .bringUp o => do
    let (answer, l) ← l.bringUp o
    return (.broughtUp answer, l)
  | .acquire => do
    let (answer, l) ← l.acquire
    return (.acquired answer, l)
  | .shutdown => do
    let (count, l) ← l.shutdown
    return (.shutDown count, l)
  | .emit number code => l.ask number (·.emit code) .emitted
  | .release number id => l.ask number (·.release id) .released
  | .withEmitter number s =>
    l.ask number (·.withEmitter s) fun answer => .carriedOut (answer.map (·.replies))
  | .live number =>
    l.ask number (fun c => return ((c.liveRegions, c.liveBytes), c)) fun (regions, bytes) =>
      .live regions bytes

/-- The runtime after a call. -/
def after (l : Lifecycle E) (call : Call) : Lifecycle E := (l.perform call).value.2

/-- The runtime after some calls, one after another. -/
def afterAll (l : Lifecycle E) (calls : List Call) : Lifecycle E := calls.foldl after l

/-! ### What becomes of contexts -/

/-- Asking a context does to it what the operation does, and to the others nothing. -/
theorem context_ask {α : Type} (hc : l.contexts[n]? = some c) (number : Nat)
    {operation : Context E → Logged (α × Context E)} {answer : α → Answer}
    (hoperation : c.Becomes (operation c).value.2) :
  ∃ c', (l.ask number operation answer).value.2.contexts[n]? = some c' ∧ c.Becomes c'
  := by
  by_cases hn : number = n
  · subst hn
    use (operation c).value.2
    constructor
    · rw [ask_of_some hc]
      apply List.getElem?_set_self
      apply (List.getElem?_eq_some_iff.mp hc).1
    · apply hoperation
  · use c
    constructor
    · cases hother : l.contexts[number]? with
      | none =>
          rw [ask_of_none hother]
          apply hc
      | some other =>
          rw [ask_of_some hother]
          apply Eq.trans _ hc
          apply List.getElem?_set_ne hn
    · apply Relation.ReflTransGen.refl

/-- What retiring the context in use comes to. -/
theorem retireCurrent_cases (l : Lifecycle E) :
  l.retireCurrent = (0, { l with current := none })
    ∨ ∃ number c, l.contexts[number]? = some c
      ∧ l.retireCurrent
        = (c.retire.1, { l with current := none, contexts := l.contexts.set number c.retire.2 })
  := by
  rw [retireCurrent]
  split
  · rename_i hcurrent
    rw [← hcurrent]
    exact .inl rfl
  · rename_i number hcurrent
    split
    · exact .inl rfl
    · rename_i c hc
      exact .inr ⟨number, c, hc, rfl⟩

/-- Retiring the current context leaves a successor of every context in its place. -/
theorem context_retireCurrent (hc : l.contexts[n]? = some c) :
  ∃ c', l.retireCurrent.2.contexts[n]? = some c' ∧ c.Becomes c'
  := by
  obtain hnone | ⟨number, context, hcontext, hretire⟩ := l.retireCurrent_cases
  · rw [hnone]
    use c, hc, .refl
  · rw [hretire]
    by_cases hn : number = n
    · subst hn
      obtain rfl := Option.some.inj (hc.symm.trans hcontext)
      use c.retire.2
      constructor
      · apply List.getElem?_set_self
        apply (List.getElem?_eq_some_iff.mp hc).1
      · apply Relation.ReflTransGen.single (.retire c)
    · use c
      constructor
      · apply (List.getElem?_set_ne hn).trans hc
      · apply Relation.ReflTransGen.refl

/-- A shutdown leaves a successor of every context in its place. -/
theorem context_shutdown (hc : l.contexts[n]? = some c) :
  ∃ c', l.shutdown.value.2.contexts[n]? = some c' ∧ c.Becomes c'
  := by
  rw [shutdown]
  split
  · use c, hc, .refl
  · apply context_retireCurrent hc

/-- A call takes steps of each context. -/
theorem context_after (hc : l.contexts[n]? = some c) (call : Call) :
  ∃ c', (l.after call).contexts[n]? = some c' ∧ c.Becomes c'
  := by
  cases call with
  | bringUp o =>
      use c
      constructor
      · apply Eq.trans _ hc
        apply congrArg (·[n]?) (contexts_bringUp l o)
      · apply Relation.ReflTransGen.refl
  | acquire => use c, context_acquire hc, .refl
  | shutdown => apply context_shutdown hc
  | emit number code =>
      apply context_ask hc
      apply Relation.ReflTransGen.single (.emit c code)
  | release number id =>
      apply context_ask hc
      apply Relation.ReflTransGen.single (.release c id)
  | withEmitter number s =>
      apply context_ask hc
      apply Relation.ReflTransGen.single (.withEmitter c s)
  | live number =>
      apply context_ask hc
      apply Relation.ReflTransGen.refl

/-- Calls, one after another, take steps of each context. -/
theorem context_afterAll (hc : l.contexts[n]? = some c) (calls : List Call) :
  ∃ c', (l.afterAll calls).contexts[n]? = some c' ∧ c.Becomes c'
  := by
  induction calls generalizing l c with
  | nil => use c, hc, .refl
  | cons call calls ih =>
      obtain ⟨c₁, hc₁, hbecomes₁⟩ := context_after hc call
      obtain ⟨c₂, hc₂, hbecomes₂⟩ := ih hc₁
      use c₂, hc₂, hbecomes₁.trans hbecomes₂

end Lifecycle

end RenderKernel.Code
