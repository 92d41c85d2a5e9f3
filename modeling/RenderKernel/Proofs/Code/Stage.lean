import RenderKernel.Proofs.Code.Turn

/-!
# Stages of the code runtime

Whatever calls are made, a runtime goes through few stages: it is uninitialized, ready without
a context, ready with its only context in use, or shut down, be it with its context retired or
without ever having had one.  What links the state of the runtime, its options and its context
can be read off the stage.
-/

namespace RenderKernel.Code.Lifecycle

open Processor

variable {E : Type} [Emitter E] {fresh : E} {l l' : Lifecycle E} {call : Call} {answer : Answer}

/-- The stages of a runtime whose contexts are created with an emitter. -/
inductive Stage (fresh : E) : Lifecycle E → Prop
  | uninitialized (offers : Detector) : Stage fresh { fresh, offers }
  /-- No context has been asked for yet. -/
  | ready (offers : Detector) (o : Options) :
    Stage fresh { fresh, offers, state := .ready, options := some o }
  | inUse (offers : Detector) {o : Options} {c : Context E}
      (hbecomes : (Context.initial fresh o).Becomes c) (hretired : c.retired = false) :
    Stage fresh
      { fresh, offers, state := .ready, options := some o, current := some 0, contexts := [c] }
  /-- The runtime was shut down before a context was asked for. -/
  | unused (offers : Detector) (options : Option Options) :
    Stage fresh { fresh, offers, state := .shutDown, options }
  | retired (offers : Detector) {o : Options} {c : Context E}
      (hbecomes : (Context.initial fresh o).Becomes c) (hretired : c.retired = true) :
    Stage fresh { fresh, offers, state := .shutDown, options := some o, contexts := [c] }

/-- The only element of a list is at its beginning. -/
theorem eq_zero_of_getElem?_singleton {α : Type} {a b : α} {n : Nat} (h : [a][n]? = some b) :
  n = 0 ∧ a = b
  := by
  cases n with
  | zero => apply And.intro rfl (Option.some.inj h)
  | succ n => cases h

namespace Stage

/-- A turn leads from stage to stage. -/
theorem turn (hturn : Turn l call answer l') (h : Stage fresh l) :
  Stage fresh l'
  := by
  cases hturn with
  | broughtUp hstate =>
      cases h with
      | uninitialized offers => apply Stage.ready
      | _ => cases hstate
  | created hstate hcurrent =>
      cases h with
      | ready offers o => apply Stage.inUse offers .refl rfl
      | inUse => cases hcurrent
      | _ => cases hstate
  | shutDown hstate =>
      cases h with
      | uninitialized offers => apply Stage.unused
      | ready offers o => apply Stage.unused
      | inUse offers hbecomes => apply Stage.retired offers (hbecomes.tail (.retire _)) rfl
      | _ => apply absurd rfl hstate
  | asked hnumber hc hbecomes' hretired' =>
      cases h with
      | inUse offers hbecomes hretired =>
          obtain ⟨rfl, rfl⟩ := eq_zero_of_getElem?_singleton hc
          apply Stage.inUse offers (hbecomes.trans hbecomes') (hretired'.trans hretired)
      | retired offers hbecomes hretired =>
          obtain ⟨rfl, rfl⟩ := eq_zero_of_getElem?_singleton hc
          apply Stage.retired offers (hbecomes.trans hbecomes') (hretired'.trans hretired)
      | _ => cases hc
  | _ => apply h

/-- The stages do not depend on the features that are offered. -/
theorem offer (h : Stage fresh l) (offers : Detector) :
  Stage fresh { l with offers }
  := by
  cases h with
  | uninitialized => apply Stage.uninitialized
  | ready => apply Stage.ready
  | inUse _ hbecomes hretired => apply Stage.inUse offers hbecomes hretired
  | unused => apply Stage.unused
  | retired _ hbecomes hretired => apply Stage.retired offers hbecomes hretired

/-! ### What can be read off a stage -/

/-- There is at most one context. -/
theorem length_contexts_le (h : Stage fresh l) :
  l.contexts.length ≤ 1
  := by
  cases h with
  | inUse | retired => apply Nat.le_refl
  | _ => apply Nat.zero_le

/-- A context came of the initial one for some options. -/
theorem becomes (h : Stage fresh l) {c : Context E} (hc : c ∈ l.contexts) :
  ∃ o, (Context.initial fresh o).Becomes c
  := by
  cases h with
  | @inUse offers o c' hbecomes | @retired offers o c' hbecomes =>
      obtain rfl := List.mem_singleton.mp hc
      exact ⟨o, hbecomes⟩
  | _ => cases hc

/-- The context in use is that of a ready runtime, and not retired. -/
theorem current (h : Stage fresh l) {n : Nat} (hcurrent : l.current = some n) :
  l.state = .ready ∧ ∃ c, l.contexts[n]? = some c ∧ c.retired = false
  := by
  cases h with
  | @inUse offers o c hbecomes hretired =>
      cases hcurrent
      exact ⟨rfl, c, rfl, hretired⟩
  | _ => cases hcurrent

/-- After the shutdown every context is retired. -/
theorem retired_of_mem (h : Stage fresh l) (hstate : l.state = .shutDown) {c : Context E}
    (hc : c ∈ l.contexts) :
  c.retired = true
  := by
  cases h with
  | unused => cases hc
  | retired offers hbecomes hretired =>
      obtain rfl := List.mem_singleton.mp hc
      exact hretired
  | _ => cases hstate

end Stage

/-- The context that a turn hands out is the first, and it is there afterwards. -/
theorem Turn.acquired_eq_zero {n : Nat} (h : Turn l .acquire (.acquired (.ok n)) l')
    (hstage : Stage fresh l) :
  n = 0 ∧ l'.contexts ≠ []
  := by
  cases h with
  | acquired hstate hcurrent =>
      cases hstage with
      | inUse =>
          cases hcurrent
          apply And.intro rfl (List.cons_ne_nil _ _)
      | _ => cases hcurrent
  | created hstate hcurrent =>
      cases hstage with
      | ready => apply And.intro rfl (List.cons_ne_nil _ _)
      | inUse => cases hcurrent
      | _ => cases hstate
  | asked hnumber => cases hnumber

/-- Every run of a new runtime leads to a stage. -/
theorem Run.stage {offers : Detector} {history : List (Call × Answer)}
    (hrun : Run { fresh, offers } history l) :
  Stage fresh l
  := by
  apply hrun.invariant Stage.turn
  · intro l offers hstage
    apply hstage.offer
  · apply Stage.uninitialized

end RenderKernel.Code.Lifecycle
