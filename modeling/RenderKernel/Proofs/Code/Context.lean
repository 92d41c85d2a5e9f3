import RenderKernel.Code.Context
import RenderKernel.Proofs.Code.Moment

/-!
# Steps of a context

What the operations of a context do and answer depends on whether it is retired.  `Step` says
what one operation can make of a context, and `Becomes` what several can.
-/

namespace RenderKernel.Code.Context

variable {E α : Type} [Emitter E] {c : Context E}

/-! ### Operations -/

/-- A retired context carries out no session. -/
theorem withEmitter_of_retired (h : c.retired = true) (s : Session α) :
  (c.withEmitter s).value = (.error (.notReady .shutDown), c)
  := by
  rw [withEmitter, if_pos h]
  rfl

/-- A session with a context that is not retired runs with its emitter, under its limit. -/
theorem withEmitter_of_not_retired (h : c.retired = false) (s : Session α) :
  (c.withEmitter s).value
    = (.ok (s.run c.maxLiveRegions c.emitter).value,
        { c with emitter := (s.run c.maxLiveRegions c.emitter).value.emitter })
  := by
  rw [withEmitter, if_neg (ne_true_of_eq_false h)]
  rfl

/-- To emit is to carry out a session of one emission. -/
theorem emit_context (c : Context E) (code : Bytes) :
  (c.emit code).value.2 = (c.withEmitter (.emit code .done)).value.2
  := by
  rw [emit, Logged.value_bind]
  rcases (c.withEmitter (.emit code .done)).value with ⟨answer, c'⟩
  cases answer with
  | ok course => rfl
  | error fault => rfl

/-- A retired context refuses to emit, and stays as it is. -/
theorem emit_of_retired (h : c.retired = true) (code : Bytes) :
  (c.emit code).value = (.done (.error (.notReady .shutDown)), c)
  := by
  rw [emit, Logged.value_bind, withEmitter_of_retired h]
  rfl

/-- A context that is not retired emits with its emitter, under its limit. -/
theorem emit_of_not_retired (h : c.retired = false) (code : Bytes) :
  (c.emit code).value
    = ((emitWithin c.maxLiveRegions c.emitter code).value.1,
        { c with emitter := (emitWithin c.maxLiveRegions c.emitter code).value.2 })
  := by
  rw [emit, Logged.value_bind, withEmitter_of_not_retired h]
  rcases he : (emitWithin c.maxLiveRegions c.emitter code).value with ⟨answer, e⟩
  cases answer with
  | done answer =>
      rw [Session.run_emit_of_done he]
      rfl
  | panicked text =>
      rw [Session.run_emit_of_panicked he]
      rfl

/-! ### Steps -/

/-- What one operation makes of a context. -/
inductive Step : Context E → Context E → Prop
  | withEmitter {α : Type} (c : Context E) (s : Session α) : Step c (c.withEmitter s).value.2
  | release (c : Context E) (id : RegionId) : Step c (c.release id).value.2
  | retire (c : Context E) : Step c c.retire.2

/-- An emission is a step of a context, whether it succeeds or not. -/
theorem Step.emit (c : Context E) (code : Bytes) :
  Step c (c.emit code).value.2
  := by
  rw [emit_context]
  apply Step.withEmitter

/-- What operations make of a context, one after another. -/
def Becomes : Context E → Context E → Prop := Relation.ReflTransGen Step

variable {c' : Context E}

/-- A step leaves the limit of a context. -/
theorem Step.maxLiveRegions_eq (h : Step c c') :
  c'.maxLiveRegions = c.maxLiveRegions
  := by
  cases h with
  | withEmitter s =>
      cases hretired : c.retired with
      | true => rw [withEmitter_of_retired hretired]
      | false => rw [withEmitter_of_not_retired hretired]
  | release id => rfl
  | retire => rfl

/-- A context keeps its limit. -/
theorem Becomes.maxLiveRegions_eq (h : c.Becomes c') :
  c'.maxLiveRegions = c.maxLiveRegions
  := by
  induction h with
  | refl => rfl
  | tail _ hlast ih => rw [hlast.maxLiveRegions_eq, ih]

/-- What the operations of a session keep within the limit of a context, a step keeps. -/
theorem Step.keeps {P : E → Prop} (hstep : Step c c') (hkept : Kept c.maxLiveRegions P)
    (h : P c.emitter) :
  P c'.emitter
  := by
  cases hstep with
  | withEmitter _ s =>
      cases hretired : c.retired with
      | true =>
          rw [withEmitter_of_retired hretired]
          apply h
      | false =>
          rw [withEmitter_of_not_retired hretired]
          apply hkept.run s h
  | release _ id => apply hkept.release id h
  | retire => apply hkept.releaseAll h

/-- What emissions and releases under the limit keep of an emitter, a context keeps of its own. -/
theorem Becomes.keeps {P : E → Prop} (hbecomes : c.Becomes c')
    (hkept : Kept c.maxLiveRegions P) (h : P c.emitter) :
  P c'.emitter
  := by
  induction hbecomes with
  | refl => apply h
  | tail hbefore hlast ih =>
      apply hlast.keeps _ ih
      rw [Becomes.maxLiveRegions_eq hbefore]
      apply hkept

end RenderKernel.Code.Context
