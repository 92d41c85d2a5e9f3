import RenderKernel.Code.Lease
import RenderKernel.Proofs.Code.Calls
import RenderKernel.Proofs.Code.Lawful

/-!
# The limit of live regions

A context with a limit has never more live regions than it may: not after any calls, and not
between two operations of a session, whatever panics.  An emission is answered by the first of
three that objects: the retirement of the context, the limit, and the emitter itself; and an
emission that fails leaves the live regions as they are.
-/

namespace RenderKernel.Code

open LawfulEmitter

variable {E α : Type} [Emitter E] [LawfulEmitter E]

/-! ### Emitters -/

/-- An emitter with no more live regions than may be. -/
structure Fits (limit : Nat) (e : E) : Prop where
  valid : Valid e
  card_le : (live e).card ≤ limit

namespace Fits

variable {limit : Nat} {e : E}

/-- An emitter without live regions fits every limit, also zero. -/
theorem of_fresh (h : Fresh e) (limit : Nat) :
  Fits limit e
  := by
  constructor
  · apply h.valid
  · rw [h.live_eq]
    apply Nat.zero_le

/-- An emitter that fits a limit has no more live regions than it. -/
theorem liveRegions_le (h : Fits limit e) :
  Emitter.liveRegions e ≤ limit
  := by
  rw [liveRegions_eq h.valid]
  apply h.card_le

/-- Emissions under a limit keep an emitter within it. -/
theorem emitWithin (h : Fits limit e) (code : Bytes) :
  Fits limit (emitWithin (some limit) e code).value.2
  := by
  rw [emitWithin_some]
  split
  · apply h
  · rename_i hroom
    rw [liveRegions_eq h.valid] at hroom
    constructor
    · apply valid_emit code h.valid
    · apply (card_live_emit_le h.valid code).trans
      apply Nat.lt_of_not_le hroom

/-- Releases keep an emitter within a limit. -/
theorem release (h : Fits limit e) (id : RegionId) :
  Fits limit (Emitter.release e id).2
  := by
  constructor
  · apply valid_release id h.valid
  · apply (Finset.card_le_card (live_release_subset id h.valid)).trans h.card_le

/-- Releasing everything keeps an emitter within a limit. -/
theorem releaseAll (h : Fits limit e) :
  Fits limit (Emitter.releaseAll e).2
  := by
  constructor
  · apply valid_releaseAll h.valid
  · apply (Finset.card_le_card (live_releaseAll_subset h.valid)).trans h.card_le

/-- The operations of a session keep the limit. -/
theorem kept (limit : Nat) :
  Kept (some limit) (Fits (E := E) limit)
  := by
  constructor
  · intro e code h
    apply h.emitWithin
  · intro e id h
    apply h.release
  · intro e h
    apply h.releaseAll

end Fits

/-- A failed emission within a limit leaves the live regions as they are. -/
theorem live_emitWithin_of_error {limit : Option Nat} {e e' : E} {code : Bytes} {fault : Fault}
    (hvalid : Valid e) (h : (emitWithin limit e code).value = (.done (.error fault), e')) :
  live e' = live e
  := by
  cases limit with
  | none =>
      rw [emitWithin_none] at h
      apply live_emit_of_error hvalid h
  | some limit =>
      rw [emitWithin_some] at h
      split at h
      · cases h
        rfl
      · apply live_emit_of_error hvalid h

/-! ### Contexts -/

namespace Context

/-- A context with a limit that its emitter fits. -/
structure Within (limit : Nat) (c : Context E) : Prop where
  maxLiveRegions_eq : c.maxLiveRegions = some limit
  fits : Fits limit c.emitter

variable {limit : Nat} {c c' : Context E}

/-- Operations keep a context within its limit. -/
theorem Within.becomes (hbecomes : c.Becomes c') (h : c.Within limit) :
  c'.Within limit
  := by
  constructor
  · rw [hbecomes.maxLiveRegions_eq]
    apply h.maxLiveRegions_eq
  · apply hbecomes.keeps _ h.fits
    rw [h.maxLiveRegions_eq]
    apply Fits.kept

end Context

/-! ### What a limit means -/

/-- Emissions from an emitter in a session with a limit. -/
structure EmissionsLimited (limit : Nat) (e : E) : Prop where
  liveRegions_le : Emitter.liveRegions e ≤ limit
  /-- At the limit an emission is refused, whatever the code. -/
  emit_of_le (code : Bytes) : limit ≤ Emitter.liveRegions e →
    (emitWithin (some limit) e code).value = (.done (.error (.regionLimit limit)), e)
  /-- Below the limit the emitter itself answers. -/
  emit_of_lt (code : Bytes) : Emitter.liveRegions e < limit →
    (emitWithin (some limit) e code).value = (Emitter.emit e code).value
  emit_of_error {e' : E} {code : Bytes} {fault : Fault} :
    (emitWithin (some limit) e code).value = (.done (.error fault), e') → live e' = live e

/-- From an emitter that fits a limit on, emissions are limited by it. -/
theorem Fits.emissionsLimited {limit : Nat} {e : E} (h : Fits limit e) :
  EmissionsLimited limit e
  := by
  constructor
  · apply h.liveRegions_le
  · intro code hle
    rw [emitWithin_some, if_pos hle]
  · intro code hlt
    rw [emitWithin_some, if_neg (Nat.not_le_of_lt hlt)]
  · intro e' code fault herror
    apply live_emitWithin_of_error h.valid herror

namespace Context

/-- Emissions and sessions of a context with a limit. -/
structure Limited (limit : Nat) (c : Context E) : Prop where
  liveRegions_le : c.liveRegions ≤ limit
  /-- A retired context emits nothing, even at the limit. -/
  emit_of_retired (code : Bytes) : c.retired = true →
    (c.emit code).value = (.done (.error (.notReady .shutDown)), c)
  /-- At the limit an emission is refused, whatever the code. -/
  emit_of_le (code : Bytes) : c.retired = false → limit ≤ c.liveRegions →
    (c.emit code).value = (.done (.error (.regionLimit limit)), c)
  /-- Below the limit the emitter itself answers. -/
  emit_of_lt (code : Bytes) : c.retired = false → c.liveRegions < limit →
    (c.emit code).value
      = ((Emitter.emit c.emitter code).value.1,
          { c with emitter := (Emitter.emit c.emitter code).value.2 })
  emit_of_error {c' : Context E} {code : Bytes} {fault : Fault} :
    (c.emit code).value = (.done (.error fault), c') → live c'.emitter = live c.emitter
  withEmitter_of_retired {α : Type} (s : Session α) : c.retired = true →
    (c.withEmitter s).value = (.error (.notReady .shutDown), c)
  /-- A session takes steps from the emitter of the context to the one that it leaves there. -/
  withEmitter_of_not_retired {α : Type} (s : Session α) : c.retired = false →
    ∃ course, (c.withEmitter s).value = (.ok course, { c with emitter := course.emitter })
      ∧ Moment.Reaches (some limit) ⟨s, c.emitter⟩ course.last
  /-- At every moment of a session, which comes to its end from there, the limit is kept. -/
  moment {α : Type} {s : Session α} {m : Moment E α} :
    Moment.Reaches (some limit) ⟨s, c.emitter⟩ m →
      (m.rest.run (some limit) m.emitter).value.last = (s.run (some limit) c.emitter).value.last
        ∧ EmissionsLimited limit m.emitter

variable {limit : Nat} {c : Context E}

/-- A failed emission leaves the live regions as they are. -/
theorem Within.live_emit_of_error {c' : Context E} {code : Bytes} {fault : Fault}
    (h : c.Within limit) (herror : (c.emit code).value = (.done (.error fault), c')) :
  live c'.emitter = live c.emitter
  := by
  cases hretired : c.retired with
  | true =>
      rw [Context.emit_of_retired hretired] at herror
      cases herror
      rfl
  | false =>
      rw [Context.emit_of_not_retired hretired] at herror
      obtain ⟨hanswer, rfl⟩ := Prod.mk.inj herror
      apply live_emitWithin_of_error h.fits.valid (Prod.ext hanswer rfl)

/-- A context whose emitter fits its limit is limited by it. -/
theorem Within.limited (h : c.Within limit) :
  c.Limited limit
  := by
  constructor
  · apply h.fits.liveRegions_le
  · intro code hretired
    apply Context.emit_of_retired hretired
  · intro code hretired hle
    have hanswer := h.fits.emissionsLimited.emit_of_le code hle
    rw [← h.maxLiveRegions_eq] at hanswer
    rw [Context.emit_of_not_retired hretired, hanswer]
  · intro code hretired hlt
    have hanswer := h.fits.emissionsLimited.emit_of_lt code hlt
    rw [← h.maxLiveRegions_eq] at hanswer
    rw [Context.emit_of_not_retired hretired, hanswer]
  · intro c' code fault herror
    apply h.live_emit_of_error herror
  · intro α s hretired
    apply Context.withEmitter_of_retired hretired
  · intro α s hretired
    use (s.run c.maxLiveRegions c.emitter).value
    constructor
    · apply Context.withEmitter_of_not_retired hretired
    · rw [h.maxLiveRegions_eq]
      apply s.reaches_run
  · intro α s m hreaches
    constructor
    · apply hreaches.last_eq
    · apply ((Fits.kept limit).reaches hreaches h.fits).emissionsLimited

end Context

/-! ### Every run -/

/-- A context that is created for a limit with a lawful emitter keeps the limit after any
calls, and answers accordingly. -/
theorem Lifecycle.acquire_limited {l l' : Lifecycle E} {limit n : Nat}
    (hfresh : Fresh l.fresh) (hlimit : l.options.bind (·.maxLiveRegions) = some limit)
    (hcurrent : l.current = none) (hacquire : l.acquire.value = (.ok n, l'))
    (calls : List Call) :
  ∃ c, (l'.afterAll calls).contexts[n]? = some c ∧ c.Limited limit
  := by
  have hcreated := context_acquire_of_none hcurrent hacquire
  obtain ⟨c, hc, hbecomes⟩ := context_afterAll hcreated calls
  use c, hc
  apply Context.Within.limited
  apply Context.Within.becomes hbecomes
  constructor
  · apply hlimit
  · apply Fits.of_fresh hfresh

/-- The runtime of a program, ready and with room for one live region. -/
def Lifecycle.oneRegion : Lifecycle HostedMemory :=
  { Lifecycle.ofProgram with state := .ready, options := some { maxLiveRegions := some 1 } }

/-- A session that asks for more than one region, and panics. -/
def Session.crowd : Session Unit :=
  .emit [195] fun _ => .releaseAll fun _ => .emit [195] fun _ => .emit [] fun _ => .panic "crowd"

/-- A limit of one region is kept by an emission and a session that asks for more. -/
theorem Lifecycle.acquire_oneRegion_limited :
  Fresh oneRegion.fresh ∧ oneRegion.options.bind (·.maxLiveRegions) = some 1
    ∧ oneRegion.current = none
    ∧ oneRegion.acquire.value = (.ok 0, oneRegion.after .acquire)
    ∧ ∃ c, ((oneRegion.after .acquire).afterAll
          [.emit 0 [195], .withEmitter 0 .crowd]).contexts[0]? = some c ∧ c.Limited 1
  := by
  have hfresh : Fresh oneRegion.fresh := HostedMemory.fresh_mk _
  use hfresh, rfl, rfl, rfl
  apply acquire_limited hfresh rfl rfl rfl

end RenderKernel.Code
