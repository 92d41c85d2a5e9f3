import RenderKernel.Proofs.Code.Stage

/-!
# The order of the code runtime's life

However the users of a runtime call it, its state never goes back, it is brought up at most
once, by the call that finds it uninitialized, and has at most one context, with the limit of
the options that brought it up.  The context in use is not retired, and after the shutdown every
context is.
-/

namespace RenderKernel.Code

open Processor

variable {E : Type}

/-! ### Histories -/

namespace Lifecycle

/-- Whether a call brought the runtime up. -/
def bringsUp : Call × Answer → Bool
  | (.bringUp _, .broughtUp (.ok true)) => true
  | _ => false

/-- Using a context does not bring the runtime up. -/
theorem bringsUp_of_number? {call : Call} {number : Nat} (h : call.number? = some number)
    (answer : Answer) :
  bringsUp (call, answer) = false
  := by
  cases call with
  | bringUp o => cases h
  | _ => rfl

/-- What the history of a runtime tells about its options and its contexts. -/
structure Recorded (history : List (Call × Answer)) (l : Lifecycle E) : Prop where
  /-- The options are those of the call that brought the runtime up. -/
  options_iff (o : Options) :
    (.bringUp o, .broughtUp (.ok true)) ∈ history ↔ l.options = some o
  countP_eq : history.countP bringsUp = l.options.toList.length
  /-- Contexts that were handed out are there. -/
  acquired {n : Nat} : (.acquire, .acquired (.ok n)) ∈ history → n = 0 ∧ l.contexts ≠ []

/-- What does not bring the runtime up adds nothing to what is told of its options. -/
theorem Recorded.append {history : List (Call × Answer)} {l l' : Lifecycle E} {call : Call}
    {answer : Answer} (h : Recorded history l) (hcall : bringsUp (call, answer) = false)
    (hoptions : l'.options = l.options) (hcontexts : l.contexts ≠ [] → l'.contexts ≠ [])
    (hacquired : ∀ n, (call, answer) = (.acquire, .acquired (.ok n)) → n = 0 ∧ l'.contexts ≠ []) :
  Recorded (history ++ [(call, answer)]) l'
  := by
  constructor
  · intro o
    rw [hoptions, ← h.options_iff, List.mem_append, List.mem_singleton]
    apply or_iff_left
    intro heq
    rw [← heq] at hcall
    cases hcall
  · rw [List.countP_append, hoptions, h.countP_eq, List.countP_singleton, hcall]
    rfl
  · intro n hmem
    cases List.mem_append.mp hmem with
    | inl hbefore => apply And.imp_right hcontexts (h.acquired hbefore)
    | inr hlast => apply hacquired n (List.mem_singleton.mp hlast).symm

end Lifecycle

variable [Emitter E]

/-! ### Limits of contexts -/

namespace Context

/-- A context whose emissions respect a limit, if there is one, until it is retired. -/
structure Enforces (limit : Option Nat) (c : Context E) : Prop where
  /-- At the limit an emission is refused. -/
  emit_of_le {n : Nat} (code : Bytes) : limit = some n → c.retired = false → n ≤ c.liveRegions →
    (c.emit code).value = (.done (.error (.regionLimit n)), c)
  /-- While there is room the emitter itself answers. -/
  emit_of_room (code : Bytes) : c.retired = false → (∀ n, limit = some n → c.liveRegions < n) →
    (c.emit code).value
      = ((Emitter.emit c.emitter code).value.1,
          { c with emitter := (Emitter.emit c.emitter code).value.2 })
  /-- So it is within a session. -/
  withEmitter {α : Type} (s : Session α) : c.retired = false →
    (c.withEmitter s).value
      = (.ok (s.run limit c.emitter).value,
          { c with emitter := (s.run limit c.emitter).value.emitter })

/-- Every context enforces its limit. -/
theorem enforces (c : Context E) :
  c.Enforces c.maxLiveRegions
  := by
  constructor
  · intro n code hlimit hretired hle
    have hfull : n ≤ Emitter.liveRegions c.emitter := hle
    rw [emit_of_not_retired hretired, hlimit, emitWithin_some, if_pos hfull, ← hlimit]
  · intro code hretired hroom
    rw [emit_of_not_retired hretired]
    cases hlimit : c.maxLiveRegions with
    | none => rw [emitWithin_none]
    | some n =>
        rw [emitWithin_some, if_neg]
        apply Nat.not_le_of_lt (hroom n hlimit)
  · intro α s hretired
    apply withEmitter_of_not_retired hretired s

end Context

namespace Lifecycle

variable {fresh : E} {l l' : Lifecycle E} {call : Call} {answer : Answer}
  {history : List (Call × Answer)}

/-! ### What turns do -/

/-- A turn brings the runtime up exactly if it makes an uninitialized runtime ready. -/
theorem Turn.bringsUp_iff (h : Turn l call answer l') :
  bringsUp (call, answer) = true ↔ l.state = .uninitialized ∧ l'.state = .ready
  := by
  cases h with
  | broughtUp hstate => apply iff_of_true rfl ⟨hstate, rfl⟩
  | asked hnumber | unknown hnumber =>
      rw [bringsUp_of_number? hnumber]
      apply iff_of_false Bool.false_ne_true
      rintro ⟨hbefore, hafter⟩
      cases hbefore.symm.trans hafter
  | shutDown =>
      apply iff_of_false Bool.false_ne_true
      rintro ⟨-, hafter⟩
      cases hafter
  | _ =>
      apply iff_of_false Bool.false_ne_true
      rintro ⟨hbefore, hafter⟩
      cases hbefore.symm.trans hafter

/-- Retiring the current context keeps the options. -/
theorem options_retireCurrent (l : Lifecycle E) :
  l.retireCurrent.2.options = l.options
  := by
  obtain hnone | ⟨number, c, -, hretire⟩ := l.retireCurrent_cases
  · rw [hnone]
  · rw [hretire]

/-- The runtime refuses to be brought up only while it is uninitialized, and then stays as it is. -/
theorem Turn.eq_of_lacking {o : Options} {e : Lacking}
    (h : Turn l (.bringUp o) (.broughtUp (.error e)) l') :
  l.state = .uninitialized ∧ l' = l
  := by
  cases h with
  | lacking hstate => apply And.intro hstate rfl
  | asked hnumber => cases hnumber

/-- Only bringing the runtime up changes the options. -/
theorem Turn.options_eq (h : Turn l call answer l') (hcall : bringsUp (call, answer) = false) :
  l'.options = l.options
  := by
  cases h with
  | broughtUp => cases hcall
  | shutDown => apply options_retireCurrent
  | _ => rfl

/-- Each turn keeps what the history tells about the options and the contexts. -/
theorem Recorded.turn (hturn : Turn l call answer l') (hstage : Stage fresh l)
    (h : Recorded history l) :
  Recorded (history ++ [(call, answer)]) l'
  := by
  cases hcall : bringsUp (call, answer) with
  | false =>
      apply h.append hcall (hturn.options_eq hcall) hturn.contexts_ne_nil
      intro n heq
      cases heq
      apply hturn.acquired_eq_zero hstage
  | true =>
      obtain ⟨hstate, -⟩ := hturn.bringsUp_iff.mp hcall
      cases hstage with
      | uninitialized offers =>
          cases hturn with
          | broughtUp =>
              constructor
              · intro o'
                rw [List.mem_append, h.options_iff, List.mem_singleton]
                simp [eq_comm]
              · rw [List.countP_append, h.countP_eq]
                rfl
              · intro n hmem
                cases List.mem_append.mp hmem with
                | inl hbefore => apply h.acquired hbefore
                | inr hlast => cases List.mem_singleton.mp hlast
          | asked hnumber | unknown hnumber =>
              rw [bringsUp_of_number? hnumber] at hcall
              cases hcall
          | _ => cases hcall
      | _ => cases hstate

/-! ### Runs -/

/-- In every run the history tells the options and the contexts, by induction on the turns. -/
theorem Run.recorded {offers : Detector} (hrun : Run { fresh, offers } history l) :
  Recorded history l
  := by
  induction hrun with
  | start =>
      constructor
      · intro o
        apply iff_of_false List.not_mem_nil
        intro h
        cases h
      · rfl
      · intro n hmem
        cases hmem
  | call hrun _ hcall ih => apply ih.turn (Turn.of_perform hcall) hrun.stage
  | offer _ offers ih =>
      constructor
      · apply ih.options_iff
      · apply ih.countP_eq
      · intro n
        apply ih.acquired

/-- The order that the users of a runtime can rely on, whatever has been called so far. -/
structure Orderly (history : List (Call × Answer)) (l : Lifecycle E) : Prop where
  /-- The state does not go back, whatever is called. -/
  state_le {later : List (Call × Answer)} {l' : Lifecycle E} : l.Run later l' → l.state ≤ l'.state
  /-- The runtime is brought up at most once. -/
  countP_bringsUp_le : history.countP bringsUp ≤ 1
  /-- A call brings it up exactly if it makes it ready. -/
  bringsUp_iff (call : Call) :
    bringsUp (call, (l.perform call).value.1) = true
      ↔ l.state = .uninitialized ∧ (l.after call).state = .ready
  /-- A call that finds features lacking changes nothing, and the runtime can be brought up on a
  processor that offers what is required. -/
  lacking {o : Options} {e : Lacking} :
    (l.perform (.bringUp o)).value.1 = .broughtUp (.error e) → l.after (.bringUp o) = l
      ∧ ∀ (offers : Detector) (o : Options),
        (∀ f, f ∈ o.requiredFeatures ∨ f ∈ o.extraFeatures → offers f = true) →
          (perform { l with offers } (.bringUp o)).value.1 = .broughtUp (.ok true)
  /-- There is at most one context. -/
  length_contexts_le : l.contexts.length ≤ 1
  /-- It is created while the runtime is ready. -/
  created {call : Call} : (l.after call).contexts.length ≠ l.contexts.length →
    call = .acquire ∧ l.state = .ready ∧ (l.after call).state = .ready
  /-- All users get the same context. -/
  acquired_eq {m n : Nat} :
    (.acquire, .acquired (.ok m)) ∈ history → (.acquire, .acquired (.ok n)) ∈ history → m = n
  /-- It enforces the limit of the options that the runtime was brought up with. -/
  acquired_enforces {n : Nat} : (.acquire, .acquired (.ok n)) ∈ history →
    ∃ c, l.contexts[n]? = some c
      ∧ (∃ o, (.bringUp o, .broughtUp (.ok true)) ∈ history)
      ∧ ∀ o, (.bringUp o, .broughtUp (.ok true)) ∈ history → c.Enforces o.maxLiveRegions
  /-- The context in use is that of a ready runtime, and not retired. -/
  current {n : Nat} : l.current = some n →
    l.state = .ready ∧ ∃ c, l.contexts[n]? = some c ∧ c.retired = false
  /-- After the shutdown every context is retired. -/
  retired : l.state = .shutDown → ∀ c ∈ l.contexts, c.retired = true

/-- The context at a stage enforces the limit of the options at that stage. -/
theorem Stage.contexts_eq (h : Stage fresh l) (hcontexts : l.contexts ≠ []) :
  ∃ o c, l.options = some o ∧ l.contexts = [c] ∧ c.Enforces o.maxLiveRegions
  := by
  cases h with
  | @inUse offers o c hbecomes | @retired offers o c hbecomes =>
      use o, c, rfl, rfl
      have henforces := c.enforces
      rw [hbecomes.maxLiveRegions_eq] at henforces
      apply henforces
  | _ => apply absurd rfl hcontexts

/-- The context that was handed out enforces the limit of the options on record. -/
theorem Recorded.acquired_enforces (h : Recorded history l) (hstage : Stage fresh l) {n : Nat}
    (hn : (.acquire, .acquired (.ok n)) ∈ history) :
  ∃ c, l.contexts[n]? = some c
    ∧ (∃ o, (.bringUp o, .broughtUp (.ok true)) ∈ history)
    ∧ ∀ o, (.bringUp o, .broughtUp (.ok true)) ∈ history → c.Enforces o.maxLiveRegions
  := by
  obtain ⟨rfl, hcontexts⟩ := h.acquired hn
  obtain ⟨o, c, ho, hc, henforces⟩ := hstage.contexts_eq hcontexts
  have hfirst : l.contexts[0]? = some c := by
    rw [hc]
    rfl
  use c, hfirst
  constructor
  · use o
    apply (h.options_iff o).mpr ho
  · intro o' ho'
    obtain rfl := Option.some.inj (ho.symm.trans ((h.options_iff o').mp ho'))
    apply henforces

/-- A runtime that found features lacking is as it was, and can be brought up on a processor that
offers what is required. -/
theorem after_of_lacking {o : Options} {e : Lacking}
    (hlacking : (l.perform (.bringUp o)).value.1 = .broughtUp (.error e)) :
  l.after (.bringUp o) = l
    ∧ ∀ (offers : Detector) (o : Options),
      (∀ f, f ∈ o.requiredFeatures ∨ f ∈ o.extraFeatures → offers f = true) →
        (perform { l with offers } (.bringUp o)).value.1 = .broughtUp (.ok true)
  := by
  have hturn := l.perform_turn (.bringUp o)
  rw [hlacking] at hturn
  obtain ⟨hstate, heq⟩ := hturn.eq_of_lacking
  use heq
  intro offers o' hoffers
  apply congrArg Prod.fst (perform_bringUp_of_offers (l := { l with offers }) hstate hoffers)

/-- A new runtime keeps the order in every run. -/
theorem Run.orderly {offers : Detector} (hrun : Run { fresh, offers } history l) :
  Orderly history l
  := by
  have hstage := hrun.stage
  have hrecorded := hrun.recorded
  constructor
  · intro later l' hlater
    apply hlater.state_le
  · rw [hrecorded.countP_eq]
    apply Option.length_toList_le
  · intro call
    apply (l.perform_turn call).bringsUp_iff
  · intro o e hlacking
    apply after_of_lacking hlacking
  · apply hstage.length_contexts_le
  · intro call hcontexts
    obtain hsame | ⟨hcall, hready, -, hready', -⟩ := (l.perform_turn call).length_contexts
    · apply absurd hsame hcontexts
    · use hcall, hready
  · intro m n hm hn
    rw [(hrecorded.acquired hm).1, (hrecorded.acquired hn).1]
  · intro n hn
    apply hrecorded.acquired_enforces hstage hn
  · intro n hcurrent
    apply hstage.current hcurrent
  · intro hstate c hc
    apply hstage.retired_of_mem hstate hc

/-- A history in which a runtime is first refused, then brought up twice, and shut down. -/
def secondTry : List (Call × Answer) :=
  [(.bringUp { requiredFeatures := [.neon] }, .broughtUp (.error ⟨[.neon]⟩)),
    (.bringUp { maxLiveRegions := some 1 }, .broughtUp (.ok true)), (.acquire, .acquired (.ok 0)),
    (.bringUp {}, .broughtUp (.ok false)), (.acquire, .acquired (.ok 0)), (.shutdown, .shutDown 0),
    (.acquire, .acquired (.error (.notReady .shutDown)))]

/-- A runtime that was refused is brought up with other options, used and shut down, in order. -/
theorem secondTry_orderly :
  ∃ l, Run ofProgram secondTry l ∧ l.state = .shutDown ∧ Orderly secondTry l
  := by
  have hrequired : ({ requiredFeatures := [.neon] } : Options).required = [.neon] := by
    rw [Options.required, List.append_nil, List.mergeSort_singleton]
    rfl
  have hrefused : (ofProgram.perform (.bringUp { requiredFeatures := [.neon] })).value
      = (.broughtUp (.error ⟨[.neon]⟩), ofProgram) := by
    rw [perform, Logged.value_bind, bringUp_of_uninitialized rfl, hrequired, if_neg (by decide)]
    rfl
  have hrun := Run.start.call _ hrefused |>.call _ (perform_bringUp_ofProgram (some 1))
    |>.call .acquire rfl |>.call (.bringUp {}) rfl |>.call .acquire rfl |>.call .shutdown rfl
    |>.call .acquire rfl
  refine ⟨_, hrun, rfl, Run.orderly hrun⟩

end Lifecycle

end RenderKernel.Code
