import RenderKernel.Proofs.Code.Lawful
import RenderKernel.Proofs.Code.Stage

/-!
# The ledger of code regions

What the users of a runtime are answered tells how many regions they gained, and how many were
given up: one by one, all together, or by the shutdown.  Over an executable memory this explains
how many are live (`Lifecycle.Run.explains`), whatever the host answers: no region is lost, and
none is released or counted twice.
-/

namespace RenderKernel.Code

open LawfulEmitter Processor

/-! ### Ledgers -/

/-- How many regions were gained, and how many were given up in each way. -/
@[ext]
structure Ledger where
  /-- Emissions that made a region. -/
  emissions : Nat := 0
  /-- Releases of a region that was live. -/
  releases : Nat := 0
  /-- Regions that were released with all others. -/
  releasedTogether : Nat := 0
  /-- Regions that were released by the shutdown. -/
  retired : Nat := 0

namespace Ledger

instance : Add Ledger where
  add g h :=
    { emissions := g.emissions + h.emissions
      releases := g.releases + h.releases
      releasedTogether := g.releasedTogether + h.releasedTogether
      retired := g.retired + h.retired }

/-- The sum of some ledgers. -/
def total : List Ledger → Ledger
  | [] => {}
  | g :: gs => g + total gs

/-- The ledger explains how the number of live regions changed. -/
def Explains (g : Ledger) (before after : Nat) : Prop :=
  before + g.emissions = g.releases + g.releasedTogether + g.retired + after

variable {g h : Ledger} {a b c : Nat}

@[simp]
theorem emissions_add :
  (g + h).emissions = g.emissions + h.emissions
  := rfl

@[simp]
theorem releases_add :
  (g + h).releases = g.releases + h.releases
  := rfl

@[simp]
theorem releasedTogether_add :
  (g + h).releasedTogether = g.releasedTogether + h.releasedTogether
  := rfl

@[simp]
theorem retired_add :
  (g + h).retired = g.retired + h.retired
  := rfl

/-- The last entry comes on top of those before it. -/
theorem total_concat (gs : List Ledger) (g : Ledger) :
  total (gs ++ [g]) = total gs + g
  := by
  induction gs with
  | nil => ext <;> simp [total]
  | cons first gs ih =>
      rw [List.cons_append, total, total, ih]
      ext <;> simp [Nat.add_assoc]

/-- Without an entry, the number of live regions stays the same. -/
theorem explains_empty (n : Nat) :
  Explains {} n n
  := by
  simp [Explains]

/-- What two ledgers explain one after the other, their sum explains. -/
theorem Explains.add (hg : g.Explains a b) (hh : h.Explains b c) :
  (g + h).Explains a c
  := by
  simp only [Explains, emissions_add, releases_add, releasedTogether_add, retired_add] at *
  omega

end Ledger

/-! ### Entries -/

/-- What the answer to an operation of a session enters in the ledger. -/
def Reply.entry : Reply → Ledger
  | .emitted (.ok _) => { emissions := 1 }
  | .released true => { releases := 1 }
  | .releasedAll count => { releasedTogether := count }
  | _ => {}

/-- What the answer to a call enters in the ledger. -/
def Answer.entry : Answer → Ledger
  | .emitted (.done (.ok _)) => { emissions := 1 }
  | .released true => { releases := 1 }
  | .shutDown count => { retired := count }
  | .carriedOut (.ok replies) => Ledger.total (replies.map Reply.entry)
  | _ => {}

/-- The ledger of a history. -/
def Ledger.ofHistory (history : List (Call × Answer)) : Ledger :=
  total (history.map fun turn => turn.2.entry)

/-! ### Sessions -/

namespace HostedMemory

variable {e e' : HostedMemory} {limit : Option Nat} {code : Bytes} {answer : Except Fault Region}

/-- The answer to an emission explains the live regions after it. -/
theorem explains_emit (h : (Emitter.emit e code).value = (.done answer, e')) :
  (Reply.emitted answer).entry.Explains (Emitter.liveRegions e) (Emitter.liveRegions e')
  := by
  have hmemory := emit_memory h
  cases answer with
  | ok r =>
      have hmore : Emitter.liveRegions e' = Emitter.liveRegions e + 1 :=
        Memory.liveRegions_emit_of_ok hmemory
      rw [hmore]
      simp [Reply.entry, Ledger.Explains, Nat.add_comm]
  | error fault =>
      have hsame : Emitter.liveRegions e' = Emitter.liveRegions e :=
        congrArg Memory.liveRegions (Memory.emit_of_error hmemory)
      rw [hsame]
      apply Ledger.explains_empty

/-- Under a limit as well, the answer to an emission explains the live regions after it. -/
theorem explains_emitWithin (h : (emitWithin limit e code).value = (.done answer, e')) :
  (Reply.emitted answer).entry.Explains (Emitter.liveRegions e) (Emitter.liveRegions e')
  := by
  cases limit with
  | none => apply explains_emit h
  | some n =>
      rw [emitWithin_some] at h
      split at h
      · cases h
        apply Ledger.explains_empty
      · apply explains_emit h

/-- The emitter that hosts its memory does not panic when it emits. -/
theorem emitWithin_ne_panicked (limit : Option Nat) (e : HostedMemory) (code : Bytes)
    (text : String) :
  (emitWithin limit e code).value.1 ≠ .panicked text
  := by
  cases limit with
  | none => apply emit_ne_panicked
  | some n =>
      rw [emitWithin_some]
      split
      · intro h
        cases h
      · apply emit_ne_panicked

/-- The answer to a release explains the live regions after it, as no identifier is in use twice. -/
theorem explains_release (h : Valid e) (id : RegionId) :
  (Reply.released (Emitter.release e id).1).entry.Explains (Emitter.liveRegions e)
    (Emitter.liveRegions (Emitter.release e id).2)
  := by
  have hcount : Emitter.liveRegions e = Emitter.liveRegions (Emitter.release e id).2
      + if (Emitter.release e id).1 then 1 else 0 := Memory.Sound.liveRegions_release h id
  rw [hcount]
  cases (Emitter.release e id).1 with
  | true => simp [Reply.entry, Ledger.Explains, Nat.add_comm]
  | false => apply Ledger.explains_empty

/-- A release of all regions counts those that were live, and leaves none. -/
theorem releaseAll_eq (e : HostedMemory) :
  (Emitter.releaseAll e).1 = Emitter.liveRegions e
    ∧ Emitter.liveRegions (Emitter.releaseAll e).2 = 0
  := ⟨rfl, rfl⟩

/-- The number of regions that are released together explains that none is left. -/
theorem explains_releaseAll (e : HostedMemory) :
  (Reply.releasedAll (Emitter.releaseAll e).1).entry.Explains (Emitter.liveRegions e)
    (Emitter.liveRegions (Emitter.releaseAll e).2)
  := by
  rw [(releaseAll_eq e).1, (releaseAll_eq e).2]
  simp [Reply.entry, Ledger.Explains]

/-- The replies of a session explain what it does to the number of live regions. -/
theorem explains_run {α : Type} (limit : Option Nat) (s : Session α) (h : Valid e) :
  (Ledger.total ((s.run limit e).value.replies.map Reply.entry)).Explains
    (Emitter.liveRegions e) (Emitter.liveRegions (s.run limit e).value.emitter)
  := by
  induction s generalizing e with
  | done a => apply Ledger.explains_empty
  | panic text => apply Ledger.explains_empty
  | emit code next ih =>
      rcases hemit : (emitWithin limit e code).value with ⟨answer, e'⟩
      cases answer with
      | done answer =>
          have hvalid := (kept_valid limit).emitWithin code h
          rw [hemit] at hvalid
          rw [Session.run_emit_of_done hemit]
          apply (explains_emitWithin hemit).add (ih answer hvalid)
      | panicked text =>
          apply absurd (congrArg Prod.fst hemit)
          apply emitWithin_ne_panicked
  | release id next ih =>
      apply (explains_release h id).add
      apply ih _ ((kept_valid limit).release id h)
  | releaseAll next ih =>
      apply (explains_releaseAll e).add
      apply ih _ ((kept_valid limit).releaseAll h)
  | live next ih =>
      apply (Ledger.explains_empty _).add
      apply ih _ _ h

end HostedMemory

/-! ### Contexts -/

namespace Context

variable {c : Context HostedMemory}

/-- What a context answers to an emission explains its live regions. -/
theorem explains_emit (c : Context HostedMemory) (code : Bytes) :
  (Answer.emitted (c.emit code).value.1).entry.Explains c.liveRegions
    (c.emit code).value.2.liveRegions
  := by
  cases hretired : c.retired with
  | true =>
      rw [emit_of_retired hretired]
      apply Ledger.explains_empty
  | false =>
      rw [emit_of_not_retired hretired]
      rcases hemit : (emitWithin c.maxLiveRegions c.emitter code).value with ⟨answer, e'⟩
      cases answer with
      | done answer =>
          have hexplains := HostedMemory.explains_emitWithin hemit
          cases answer with
          | ok r => apply hexplains
          | error fault => apply hexplains
      | panicked text =>
          apply absurd (congrArg Prod.fst hemit)
          apply HostedMemory.emitWithin_ne_panicked

/-- What a context answers to a session explains its live regions, also if the session panics. -/
theorem explains_withEmitter {α : Type} (h : Valid c.emitter) (s : Session α) :
  (Answer.carriedOut ((c.withEmitter s).value.1.map (·.replies))).entry.Explains c.liveRegions
    (c.withEmitter s).value.2.liveRegions
  := by
  cases hretired : c.retired with
  | true =>
      rw [withEmitter_of_retired hretired]
      apply Ledger.explains_empty
  | false =>
      rw [withEmitter_of_not_retired hretired]
      apply HostedMemory.explains_run c.maxLiveRegions s h

/-- What a context answers to a release explains its live regions. -/
theorem explains_release (h : Valid c.emitter) (id : RegionId) :
  (Answer.released (c.release id).value.1).entry.Explains c.liveRegions
    (c.release id).value.2.liveRegions
  := by
  have hexplains := HostedMemory.explains_release h id
  rw [show (c.release id).value.1 = (Emitter.release c.emitter id).1 from rfl]
  cases hlive : (Emitter.release c.emitter id).1 with
  | true =>
      rw [hlive] at hexplains
      apply hexplains
  | false =>
      rw [hlive] at hexplains
      apply hexplains

end Context

/-! ### Runtimes -/

namespace Lifecycle

variable {host : Nat → Placement} {l : Lifecycle HostedMemory}

/-- How many regions of a runtime are live. -/
def liveRegions (l : Lifecycle HostedMemory) : Nat :=
  l.contexts.foldr (fun c sum => c.liveRegions + sum) 0

/-- The emitter of the context at a stage is valid. -/
theorem Stage.valid (h : Stage { host } l) {c : Context HostedMemory} (hc : c ∈ l.contexts) :
  Valid c.emitter
  := by
  obtain ⟨o, hbecomes⟩ := h.becomes hc
  apply hbecomes.keeps (kept_valid _)
  apply Memory.sound_empty

/-- Asking a context changes the live regions of the runtime as it changes those of the
context. -/
theorem explains_ask {α : Type} (h : Stage { host } l) (number : Nat)
    {operation : Context HostedMemory → Logged (α × Context HostedMemory)} {answer : α → Answer}
    (hoperation : ∀ c ∈ l.contexts, (answer (operation c).value.1).entry.Explains c.liveRegions
      (operation c).value.2.liveRegions) :
  (l.ask number operation answer).value.1.entry.Explains l.liveRegions
    (l.ask number operation answer).value.2.liveRegions
  := by
  cases hc : l.contexts[number]? with
  | none =>
      rw [ask_of_none hc]
      apply Ledger.explains_empty
  | some c =>
      rw [ask_of_some hc]
      have hexplains := hoperation c (List.mem_of_getElem? hc)
      cases h with
      | inUse | retired =>
          obtain ⟨rfl, rfl⟩ := eq_zero_of_getElem?_singleton hc
          apply hexplains
      | _ => cases hc

/-- What the runtime answers to a shutdown explains that no region is left. -/
theorem explains_shutdown (h : Stage { host } l) :
  (Answer.shutDown l.shutdown.value.1).entry.Explains l.liveRegions
    l.shutdown.value.2.liveRegions
  := by
  cases h with
  | @inUse offers o c =>
      have hexplains : Ledger.Explains { retired := c.liveRegions } c.liveRegions 0 := by
        simp [Ledger.Explains]
      apply hexplains
  | _ => apply Ledger.explains_empty

/-- The answer to a call explains what the call does to the number of live regions. -/
theorem explains_perform (h : Stage { host } l) (call : Call) :
  (l.perform call).value.1.entry.Explains l.liveRegions (l.after call).liveRegions
  := by
  cases call with
  | bringUp o =>
      have hsame : (l.after (.bringUp o)).liveRegions = l.liveRegions :=
        congrArg (List.foldr _ 0) (contexts_bringUp l o)
      rw [hsame]
      apply Ledger.explains_empty
  | acquire =>
      cases h with
      | _ => apply Ledger.explains_empty
  | shutdown => apply explains_shutdown h
  | emit number code =>
      apply explains_ask h
      intro c hc
      apply c.explains_emit
  | release number id =>
      apply explains_ask h
      intro c hc
      apply Context.explains_release (h.valid hc)
  | withEmitter number s =>
      apply explains_ask h
      intro c hc
      apply Context.explains_withEmitter (h.valid hc)
  | live number =>
      apply explains_ask h
      intro c hc
      apply Ledger.explains_empty

/-- The history of a runtime explains how many of its regions are live. -/
theorem Run.explains {offers : Detector} {history : List (Call × Answer)}
    (hrun : Run { fresh := { host }, offers } history l) :
  (Ledger.ofHistory history).Explains 0 l.liveRegions
  := by
  induction hrun with
  | start => apply Ledger.explains_empty
  | call hrun call hcall ih =>
      have hexplains := explains_perform hrun.stage call
      rw [after, hcall] at hexplains
      rw [Ledger.ofHistory, List.map_append, List.map_singleton, Ledger.total_concat]
      apply ih.add hexplains
  | offer _ offers ih => apply ih

end Lifecycle

end RenderKernel.Code
