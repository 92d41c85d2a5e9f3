import RenderKernel.Proofs.Code.Memory
import RenderKernel.Proofs.Code.Moment

/-!
# Lawful emitters

A lawful emitter keeps account of its live regions: a successful emission adds one of them, a
failed one changes nothing, and releases only take regions away.  The executable memory is
lawful whatever its host answers.
-/

namespace RenderKernel.Code

/-- Emitters that keep account of their live regions. -/
class LawfulEmitter (E : Type) [Emitter E] where
  /-- The states in which the account is right. -/
  Valid : E → Prop
  /-- The numbers of the live regions. -/
  live : E → Finset RegionId
  liveRegions_eq {e : E} : Valid e → Emitter.liveRegions e = (live e).card
  valid_emit {e : E} (code : Bytes) : Valid e → Valid (Emitter.emit e code).value.2
  valid_release {e : E} (id : RegionId) : Valid e → Valid (Emitter.release e id).2
  valid_releaseAll {e : E} : Valid e → Valid (Emitter.releaseAll e).2
  live_emit_of_ok {e e' : E} {code : Bytes} {r : Region} :
    Valid e → (Emitter.emit e code).value = (.done (.ok r), e') →
      ∃ id ∉ live e, live e' = insert id (live e)
  live_emit_of_error {e e' : E} {code : Bytes} {fault : Fault} :
    Valid e → (Emitter.emit e code).value = (.done (.error fault), e') → live e' = live e
  /-- An emission that panics may have made its region already. -/
  live_emit_of_panicked {e e' : E} {code : Bytes} {text : String} :
    Valid e → (Emitter.emit e code).value = (.panicked text, e') →
      ∃ id, live e' ⊆ insert id (live e)
  live_release_subset {e : E} (id : RegionId) :
    Valid e → live (Emitter.release e id).2 ⊆ live e
  live_releaseAll_subset {e : E} : Valid e → live (Emitter.releaseAll e).2 ⊆ live e

namespace LawfulEmitter

variable {E : Type} [Emitter E] [LawfulEmitter E]

/-- An emitter that has no live regions yet. -/
structure Fresh (e : E) : Prop where
  valid : Valid e
  live_eq : live e = ∅

/-- An emission makes at most one more region live. -/
theorem live_emit_subset {e : E} (h : Valid e) (code : Bytes) :
  ∃ id, live (Emitter.emit e code).value.2 ⊆ insert id (live e)
  := by
  rcases he : (Emitter.emit e code).value with ⟨answer, e'⟩
  cases answer with
  | done answer =>
      cases answer with
      | ok r =>
          obtain ⟨id, -, hlive⟩ := live_emit_of_ok h he
          use id
          rw [hlive]
      | error fault =>
          use ⟨0⟩
          rw [live_emit_of_error h he]
          apply Finset.subset_insert
  | panicked text => apply live_emit_of_panicked h he

/-- An emission adds at most one to the number of live regions. -/
theorem card_live_emit_le {e : E} (h : Valid e) (code : Bytes) :
  (live (Emitter.emit e code).value.2).card ≤ (live e).card + 1
  := by
  obtain ⟨id, hsubset⟩ := live_emit_subset h code
  apply (Finset.card_le_card hsubset).trans
  apply Finset.card_insert_le

/-- The operations of a session keep an emitter valid. -/
theorem kept_valid (limit : Option Nat) :
  Kept limit (Valid (E := E))
  := by
  constructor
  · intro e code h
    cases limit with
    | none => apply valid_emit code h
    | some n =>
        rw [emitWithin_some]
        split
        · apply h
        · apply valid_emit code h
  · intro e id h
    apply valid_release id h
  · intro e h
    apply valid_releaseAll h

end LawfulEmitter

/-! ### Executable memory -/

namespace HostedMemory

/-- An emission from a hosted memory is one from its memory, at the place that the host
provides. -/
theorem emit_memory {e e' : HostedMemory} {code : Bytes} {answer : Except Fault Region}
    (h : (Emitter.emit e code).value = (.done answer, e')) :
  (e.memory.emit (e.host e.requests) code).value = (answer, e'.memory)
  := by
  obtain ⟨hanswer, rfl⟩ := Prod.mk.inj h
  rw [← Ending.done.inj hanswer]

/-- A hosted memory does not panic. -/
theorem emit_ne_panicked (e : HostedMemory) (code : Bytes) (text : String) :
  (Emitter.emit e code).value.1 ≠ .panicked text
  := by
  intro h
  cases h

instance : LawfulEmitter HostedMemory where
  Valid e := e.memory.Sound
  live e := e.memory.liveIds
  liveRegions_eq h := h.liveRegions_eq
  valid_emit code h := h.emit _ code
  valid_release id h := h.release id
  valid_releaseAll _ := Memory.Sound.releaseAll _
  live_emit_of_ok h he := ⟨_, h.liveIds_emit_of_ok (emit_memory he)⟩
  live_emit_of_error _ he := by
    rw [Memory.emit_of_error (emit_memory he)]
  live_emit_of_panicked _ he := by
    apply absurd (congrArg Prod.fst he)
    apply emit_ne_panicked
  live_release_subset id _ := (Memory.liveIds_release _ id).subset.trans (Finset.erase_subset _ _)
  live_releaseAll_subset _ := (Memory.liveIds_releaseAll _).subset.trans (Finset.empty_subset _)

/-- A host starts with an empty memory. -/
theorem fresh_mk (host : Nat → Placement) :
  LawfulEmitter.Fresh { host : HostedMemory }
  := by
  constructor
  · apply Memory.sound_empty
  · apply Memory.liveIds_empty

end HostedMemory

end RenderKernel.Code
