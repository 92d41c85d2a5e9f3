import RenderKernel.Code.Lease
import RenderKernel.Proofs.Code.Calls
import RenderKernel.Proofs.Code.Options

/-!
# Turns of the code runtime

A turn is one call, its answer, and the runtime before and after it.  `perform_turn` says once
what a turn can be.  A run is any number of turns, between which the processor may come to be
found to offer something else.
-/

namespace RenderKernel.Code

open Processor

/-- No state comes after the shutdown. -/
theorem State.le_shutDown (s : State) :
  s ≤ .shutDown
  := by
  cases s <;> decide

/-- Nothing but the shutdown comes as late as it. -/
theorem State.eq_shutDown_of_le {s : State} (h : .shutDown ≤ s) :
  s = .shutDown
  := by
  revert h
  cases s <;> decide

/-- The number of the context that a call asks, if it asks one. -/
def Call.number? : Call → Option Nat
  | .bringUp _ => none
  | .acquire => none
  | .shutdown => none
  | .emit number _ => some number
  | .release number _ => some number
  | .withEmitter number _ => some number
  | .live number => some number

variable {E : Type}

/-- A context as it is created for some options. -/
def Context.initial (fresh : E) (o : Options) : Context E :=
  { emitter := fresh, maxLiveRegions := o.maxLiveRegions }

namespace Lifecycle

/-! ### Bringing the runtime up -/

/-- Bringing the runtime up for the first time verifies the processor. -/
theorem bringUp_of_uninitialized {l : Lifecycle E} (h : l.state = .uninitialized) (o : Options) :
  (l.bringUp o).value
    = if ∀ f ∈ o.required, l.offers f = true then
        (.ok true, { l with options := some o, state := .ready })
      else
        (.error ⟨o.required.filter (!l.offers ·)⟩, l)
  := by
  simp only [bringUp, h, Logged.value_bind, verify_value]
  by_cases hoffers : ∀ f ∈ o.required, l.offers f = true
  · rw [if_pos hoffers, if_pos hoffers]
    rfl
  · rw [if_neg hoffers, if_neg hoffers]
    rfl

/-- Bringing the runtime up again has no effect. -/
theorem bringUp_of_ne_uninitialized {l : Lifecycle E} (h : l.state ≠ .uninitialized)
    (o : Options) :
  (l.bringUp o).value = (.ok false, l)
  := by
  rw [bringUp]
  split
  · rfl
  · rfl
  · rename_i hstate
    apply absurd hstate h

end Lifecycle

variable [Emitter E]

/-! ### Contexts -/

namespace Context

/-- A session does not retire a context. -/
theorem retired_withEmitter {α : Type} (c : Context E) (s : Session α) :
  (c.withEmitter s).value.2.retired = c.retired
  := by
  cases hretired : c.retired with
  | true => rw [withEmitter_of_retired hretired, hretired]
  | false =>
      rw [withEmitter_of_not_retired hretired]
      apply hretired

/-- An emission does not retire a context. -/
theorem retired_emit (c : Context E) (code : Bytes) :
  (c.emit code).value.2.retired = c.retired
  := by
  rw [emit_context]
  apply retired_withEmitter

end Context

namespace Lifecycle

/-! ### First calls -/

/-- An uninitialized runtime can be brought up on a processor that offers what is required. -/
theorem perform_bringUp_of_offers {l : Lifecycle E} {o : Options} (h : l.state = .uninitialized)
    (hoffers : ∀ f, f ∈ o.requiredFeatures ∨ f ∈ o.extraFeatures → l.offers f = true) :
  (l.perform (.bringUp o)).value
    = (.broughtUp (.ok true), { l with options := some o, state := .ready })
  := by
  rw [perform, Logged.value_bind, bringUp_of_uninitialized h, if_pos]
  · rfl
  · intro f hf
    apply hoffers f (Options.mem_required.mp hf)

/-- A program can bring its runtime up with the features that are taken for granted. -/
theorem perform_bringUp_ofProgram (limit : Option Nat) :
  (ofProgram.perform (.bringUp { maxLiveRegions := limit })).value
    = (.broughtUp (.ok true),
        { ofProgram with options := some { maxLiveRegions := limit }, state := .ready })
  := by
  apply perform_bringUp_of_offers rfl
  intro f hf
  simpa [ofProgram, baselineProcessor, Feature.isBaseline] using hf

/-! ### Turns -/

/-- What a call can be answered, and what it makes of the runtime. -/
inductive Turn (l : Lifecycle E) : Call → Answer → Lifecycle E → Prop
  | broughtUp {o : Options} (hstate : l.state = .uninitialized)
      (hoffers : ∀ f ∈ o.required, l.offers f = true) :
    Turn l (.bringUp o) (.broughtUp (.ok true)) { l with options := some o, state := .ready }
  | lacking {o : Options} (hstate : l.state = .uninitialized)
      (hlacks : ¬∀ f ∈ o.required, l.offers f = true) :
    Turn l (.bringUp o) (.broughtUp (.error ⟨o.required.filter (!l.offers ·)⟩)) l
  | ignored {o : Options} (hstate : l.state ≠ .uninitialized) :
    Turn l (.bringUp o) (.broughtUp (.ok false)) l
  | unready (hstate : l.state ≠ .ready) :
    Turn l .acquire (.acquired (.error (.notReady l.state))) l
  | acquired {number : Nat} (hstate : l.state = .ready) (hcurrent : l.current = some number) :
    Turn l .acquire (.acquired (.ok number)) l
  | created (hstate : l.state = .ready) (hcurrent : l.current = none) :
    Turn l .acquire (.acquired (.ok l.contexts.length))
      { l with
        current := some l.contexts.length
        contexts := l.contexts
          ++ [{ emitter := l.fresh, maxLiveRegions := l.options.bind (·.maxLiveRegions) }] }
  | again (hstate : l.state = .shutDown) : Turn l .shutdown (.shutDown 0) l
  | shutDown (hstate : l.state ≠ .shutDown) :
    Turn l .shutdown (.shutDown l.retireCurrent.1) { l.retireCurrent.2 with state := .shutDown }
  | asked {call : Call} {answer : Answer} {number : Nat} {c c' : Context E}
      (hnumber : call.number? = some number) (hc : l.contexts[number]? = some c)
      (hbecomes : c.Becomes c') (hretired : c'.retired = c.retired) :
    Turn l call answer { l with contexts := l.contexts.set number c' }
  | unknown {call : Call} {number : Nat} (hnumber : call.number? = some number)
      (hc : l.contexts[number]? = none) :
    Turn l call .unknown l

/-- Bringing the runtime up is a turn, whether it is refused, ignored or done. -/
theorem bringUp_turn (l : Lifecycle E) (o : Options) :
  Turn l (.bringUp o) (l.perform (.bringUp o)).value.1 (l.after (.bringUp o))
  := by
  simp only [after, perform, Logged.value_bind]
  by_cases hstate : l.state = .uninitialized
  · rw [bringUp_of_uninitialized hstate]
    split
    · rename_i hoffers
      apply Turn.broughtUp hstate hoffers
    · rename_i hlacks
      apply Turn.lacking hstate hlacks
  · rw [bringUp_of_ne_uninitialized hstate]
    apply Turn.ignored hstate

/-- Acquiring the context is a turn, whether one is made, found or refused. -/
theorem acquire_turn (l : Lifecycle E) :
  Turn l .acquire (l.perform .acquire).value.1 (l.after .acquire)
  := by
  simp only [after, perform, acquire, Logged.value_bind]
  split
  · rename_i hstate
    apply Turn.unready hstate
  · rename_i hstate
    split
    · rename_i number hcurrent
      apply Turn.acquired (not_not.mp hstate) hcurrent
    · rename_i hcurrent
      apply Turn.created (not_not.mp hstate) hcurrent

/-- A shutdown is a turn. -/
theorem shutdown_turn (l : Lifecycle E) :
  Turn l .shutdown (l.perform .shutdown).value.1 (l.after .shutdown)
  := by
  simp only [after, perform, shutdown, Logged.value_bind]
  split
  · rename_i hstate
    apply Turn.again hstate
  · rename_i hstate
    apply Turn.shutDown hstate

/-- Asking a context for what neither retires it nor makes it another one is a turn. -/
theorem ask_turn {α : Type} {l : Lifecycle E} {call : Call} {number : Nat}
    {operation : Context E → Logged (α × Context E)} {answer : α → Answer}
    (hnumber : call.number? = some number)
    (hbecomes : ∀ c : Context E, c.Becomes (operation c).value.2)
    (hretired : ∀ c : Context E, (operation c).value.2.retired = c.retired) :
  Turn l call (l.ask number operation answer).value.1 (l.ask number operation answer).value.2
  := by
  cases hc : l.contexts[number]? with
  | none =>
      rw [ask_of_none hc]
      apply Turn.unknown hnumber hc
  | some c =>
      rw [ask_of_some hc]
      apply Turn.asked hnumber hc (hbecomes c) (hretired c)

/-- What a turn can be. -/
theorem perform_turn (l : Lifecycle E) (call : Call) :
  Turn l call (l.perform call).value.1 (l.after call)
  := by
  cases call with
  | bringUp o => apply bringUp_turn
  | acquire => apply acquire_turn
  | shutdown => apply shutdown_turn
  | emit number code =>
      apply ask_turn rfl
      · intro c
        apply Relation.ReflTransGen.single (.emit c code)
      · intro c
        apply c.retired_emit
  | release number id =>
      apply ask_turn rfl
      · intro c
        apply Relation.ReflTransGen.single (.release c id)
      · intro c
        rfl
  | withEmitter number s =>
      apply ask_turn rfl
      · intro c
        apply Relation.ReflTransGen.single (.withEmitter c s)
      · intro c
        apply c.retired_withEmitter
  | live number =>
      apply ask_turn rfl
      · intro c
        apply Relation.ReflTransGen.refl
      · intro c
        rfl

/-- Every call is a turn. -/
theorem Turn.of_perform {l l' : Lifecycle E} {call : Call} {answer : Answer}
    (h : (l.perform call).value = (answer, l')) :
  Turn l call answer l'
  := by
  have hturn := l.perform_turn call
  rw [after, h] at hturn
  apply hturn

/-- A turn does not go back to an earlier state. -/
theorem Turn.state_le {l l' : Lifecycle E} {call : Call} {answer : Answer}
    (h : Turn l call answer l') :
  l.state ≤ l'.state
  := by
  cases h with
  | broughtUp hstate =>
      rw [hstate]
      apply Nat.zero_le
  | shutDown => apply State.le_shutDown
  | _ => apply Nat.le_refl

/-- The runtime is shut down after a shutdown. -/
theorem Turn.state_of_shutdown {l l' : Lifecycle E} {answer : Answer}
    (h : Turn l .shutdown answer l') :
  l'.state = .shutDown
  := by
  cases h with
  | again hstate => apply hstate
  | shutDown => rfl
  | asked hnumber | unknown hnumber => cases hnumber

/-- Retiring the current context removes none. -/
theorem length_contexts_retireCurrent (l : Lifecycle E) :
  l.retireCurrent.2.contexts.length = l.contexts.length
  := by
  obtain hnone | ⟨number, c, -, hretire⟩ := l.retireCurrent_cases
  · rw [hnone]
  · rw [hretire]
    apply List.length_set

/-- A turn creates a context only for a user who asks for the context of a ready runtime that
has none in use, and takes no context away. -/
theorem Turn.length_contexts {l l' : Lifecycle E} {call : Call} {answer : Answer}
    (h : Turn l call answer l') :
  l'.contexts.length = l.contexts.length
    ∨ call = .acquire ∧ l.state = .ready ∧ l.current = none ∧ l'.state = .ready
      ∧ l'.contexts.length = l.contexts.length + 1
  := by
  cases h with
  | created hstate hcurrent =>
      apply Or.inr
      use rfl, hstate, hcurrent, hstate
      apply List.length_append
  | shutDown =>
      apply Or.inl
      apply length_contexts_retireCurrent
  | asked =>
      apply Or.inl
      apply List.length_set
  | _ => apply Or.inl rfl

/-- A runtime that has a context keeps it. -/
theorem Turn.contexts_ne_nil {l l' : Lifecycle E} {call : Call} {answer : Answer}
    (h : Turn l call answer l') (hcontexts : l.contexts ≠ []) :
  l'.contexts ≠ []
  := by
  have hpos := List.length_pos_iff.mpr hcontexts
  apply List.length_pos_iff.mp
  obtain hsame | ⟨-, -, -, -, hmore⟩ := h.length_contexts
  · rw [hsame]
    apply hpos
  · rw [hmore]
    apply Nat.succ_pos

/-! ### Runs -/

/-- The calls of a run with their answers, the last one at the end, and the runtime after them.
What the processor is found to offer may change at any time. -/
inductive Run (l : Lifecycle E) : List (Call × Answer) → Lifecycle E → Prop
  | start : Run l [] l
  | call {history : List (Call × Answer)} {l₁ l₂ : Lifecycle E} {answer : Answer}
      (hrun : Run l history l₁) (call : Call) (hcall : (l₁.perform call).value = (answer, l₂)) :
    Run l (history ++ [(call, answer)]) l₂
  | offer {history : List (Call × Answer)} {l₁ : Lifecycle E} (hrun : Run l history l₁)
      (offers : Detector) :
    Run l history { l₁ with offers }

namespace Run

variable {l l' : Lifecycle E} {history : List (Call × Answer)}

/-- What every turn keeps, every run keeps. -/
theorem invariant {P : Lifecycle E → Prop}
    (hturn : ∀ {l l' : Lifecycle E} {call : Call} {answer : Answer},
      Turn l call answer l' → P l → P l')
    (hoffer : ∀ {l : Lifecycle E} (offers : Detector), P l → P { l with offers })
    (hrun : l.Run history l') (h : P l) :
  P l'
  := by
  induction hrun with
  | start => apply h
  | call _ _ hcall ih => apply hturn (Turn.of_perform hcall) ih
  | offer _ offers ih => apply hoffer offers ih

/-- A run does not go back to an earlier state. -/
theorem state_le (hrun : l.Run history l') :
  l.state ≤ l'.state
  := by
  induction hrun with
  | start => apply Nat.le_refl
  | call _ _ hcall ih => apply Nat.le_trans ih (Turn.of_perform hcall).state_le
  | offer _ _ ih => apply ih

/-- The shutdown is for good. -/
theorem state_of_shutdown {answer : Answer} (hrun : l.Run history l')
    (hmem : (.shutdown, answer) ∈ history) :
  l'.state = .shutDown
  := by
  induction hrun with
  | start => cases hmem
  | call _ _ hcall ih =>
      cases List.mem_append.mp hmem with
      | inl hbefore =>
          apply State.eq_shutDown_of_le
          rw [← ih hbefore]
          apply (Turn.of_perform hcall).state_le
      | inr hlast =>
          cases List.mem_singleton.mp hlast
          apply (Turn.of_perform hcall).state_of_shutdown
  | offer _ _ ih => apply ih hmem

end Run

end Lifecycle

end RenderKernel.Code
