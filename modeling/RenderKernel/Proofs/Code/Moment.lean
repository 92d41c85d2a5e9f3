import Mathlib.Logic.Relation
import RenderKernel.Code.Session

/-!
# Moments of a session

Between two operations a session stands at a moment: there is something left of it, and an
emitter to go on with.  A session takes one step at a time, and carrying it out is taking steps
until it has ended.
-/

namespace RenderKernel.Code

/-- What is left of a session, and the emitter that it goes on with. -/
structure Moment (E α : Type) where
  rest : Session α
  emitter : E

/-- The session that ends at once. -/
def Session.ofEnding {α : Type} : Ending α → Session α
  | .done a => .done a
  | .panicked text => .panic text

/-- The moment at which a course has ended. -/
def Course.last {E α : Type} (c : Course E α) : Moment E α := ⟨.ofEnding c.ending, c.emitter⟩

/-- A reply before a course does not change where it ends. -/
@[simp]
theorem Course.last_after {E α : Type} (reply : Reply) (c : Course E α) :
  (c.after reply).last = c.last
  := rfl

variable {E α : Type} [Emitter E]

/-! ### Emission within a limit -/

/-- Without a limit, emissions are those of the emitter. -/
theorem emitWithin_none (e : E) (code : Bytes) :
  (emitWithin none e code).value = (Emitter.emit e code).value
  := rfl

/-- The limit is asked before the emitter is, whatever the code. -/
theorem emitWithin_some (limit : Nat) (e : E) (code : Bytes) :
  (emitWithin (some limit) e code).value
    = if limit ≤ Emitter.liveRegions e then
        (.done (.error (.regionLimit limit)), e)
      else
        (Emitter.emit e code).value
  := by
  rw [emitWithin]
  split
  · rfl
  · rfl

/-! ### Steps -/

namespace Moment

/-- One operation of a session. -/
inductive Step (limit : Option Nat) : Moment E α → Moment E α → Prop
  | emit {code : Bytes} {next : Except Fault Region → Session α} {e e' : E}
      {answer : Except Fault Region}
      (h : (emitWithin limit e code).value = (.done answer, e')) :
    Step limit ⟨.emit code next, e⟩ ⟨next answer, e'⟩
  | emitPanicked {code : Bytes} {next : Except Fault Region → Session α} {e e' : E}
      {text : String} (h : (emitWithin limit e code).value = (.panicked text, e')) :
    Step limit ⟨.emit code next, e⟩ ⟨.panic text, e'⟩
  | release (id : RegionId) (next : Bool → Session α) (e : E) :
    Step limit ⟨.release id next, e⟩
      ⟨next (Emitter.release e id).1, (Emitter.release e id).2⟩
  | releaseAll (next : Nat → Session α) (e : E) :
    Step limit ⟨.releaseAll next, e⟩
      ⟨next (Emitter.releaseAll e).1, (Emitter.releaseAll e).2⟩
  | live (next : Nat → Nat → Session α) (e : E) :
    Step limit ⟨.live next, e⟩ ⟨next (Emitter.liveRegions e) (Emitter.liveBytes e), e⟩

/-- The moments that come after a moment, itself included. -/
def Reaches (limit : Option Nat) : Moment E α → Moment E α → Prop :=
  Relation.ReflTransGen (Step limit)

end Moment

/-! ### Kept properties -/

/-- A property of emitters that every operation of a session with a limit keeps. -/
structure Kept (limit : Option Nat) (P : E → Prop) : Prop where
  emitWithin {e : E} (code : Bytes) : P e → P (emitWithin limit e code).value.2
  release {e : E} (id : RegionId) : P e → P (Emitter.release e id).2
  releaseAll {e : E} : P e → P (Emitter.releaseAll e).2

namespace Kept

variable {limit : Option Nat} {P : E → Prop} {m m' : Moment E α}

/-- What emissions and releases keep of an emitter, one step of a session keeps. -/
theorem step (hkept : Kept limit P) (hstep : Moment.Step limit m m') (h : P m.emitter) :
  P m'.emitter
  := by
  cases hstep with
  | @emit code next e e' answer hemit =>
      have hafter := hkept.emitWithin code h
      rw [hemit] at hafter
      apply hafter
  | @emitPanicked code next e e' text hemit =>
      have hafter := hkept.emitWithin code h
      rw [hemit] at hafter
      apply hafter
  | release id next e => apply hkept.release id h
  | releaseAll next e => apply hkept.releaseAll h
  | live next e => apply h

/-- What every operation keeps holds at every moment of a session. -/
theorem reaches (hkept : Kept limit P) (hreaches : Moment.Reaches limit m m')
    (h : P m.emitter) :
  P m'.emitter
  := by
  induction hreaches with
  | refl => apply h
  | tail _ hlast ih => apply hkept.step hlast ih

end Kept

/-! ### Carrying out a session -/

namespace Session

/-- A session that emits goes on with the answer, and tells it first. -/
theorem run_emit_of_done {limit : Option Nat} {code : Bytes}
    {next : Except Fault Region → Session α} {e e' : E} {answer : Except Fault Region}
    (h : (emitWithin limit e code).value = (.done answer, e')) :
  ((Session.emit code next).run limit e).value
    = ((next answer).run limit e').value.after (.emitted answer)
  := by
  rw [run, Logged.value_bind, h]
  rfl

/-- A session ends with an emission that panics. -/
theorem run_emit_of_panicked {limit : Option Nat} {code : Bytes}
    {next : Except Fault Region → Session α} {e e' : E} {text : String}
    (h : (emitWithin limit e code).value = (.panicked text, e')) :
  ((Session.emit code next).run limit e).value = ⟨[], .panicked text, e'⟩
  := by
  rw [run, Logged.value_bind, h]
  rfl

/-- A session that is carried out takes steps until it has ended. -/
theorem reaches_run (limit : Option Nat) (s : Session α) (e : E) :
  Moment.Reaches limit ⟨s, e⟩ (s.run limit e).value.last
  := by
  induction s generalizing e with
  | done a => apply Relation.ReflTransGen.refl
  | panic text => apply Relation.ReflTransGen.refl
  | emit code next ih =>
      rcases h : (emitWithin limit e code).value with ⟨answer, e'⟩
      cases answer with
      | done answer =>
          rw [run_emit_of_done h, Course.last_after]
          apply Relation.ReflTransGen.head (.emit h) (ih answer e')
      | panicked text =>
          rw [run_emit_of_panicked h]
          apply Relation.ReflTransGen.single (.emitPanicked h)
  | release id next ih =>
      apply Relation.ReflTransGen.head (.release id next e)
      apply ih
  | releaseAll next ih =>
      apply Relation.ReflTransGen.head (.releaseAll next e)
      apply ih
  | live next ih =>
      apply Relation.ReflTransGen.head (.live next e)
      apply ih

end Session

/-- What emissions and releases keep of an emitter, a whole session keeps, by induction on its
steps. -/
theorem Kept.run {limit : Option Nat} {P : E → Prop} (hkept : Kept limit P) (s : Session α)
    {e : E} (h : P e) :
  P (s.run limit e).value.emitter
  := hkept.reaches (s.reaches_run limit e) h

namespace Moment

/-- A step leads to the same end. -/
theorem Step.last_eq {limit : Option Nat} {m m' : Moment E α} (h : Step limit m m') :
  (m'.rest.run limit m'.emitter).value.last = (m.rest.run limit m.emitter).value.last
  := by
  cases h with
  | emit hemit => rw [Session.run_emit_of_done hemit, Course.last_after]
  | emitPanicked hemit =>
      rw [Session.run_emit_of_panicked hemit]
      rfl
  | release id next e => rfl
  | releaseAll next e => rfl
  | live next e => rfl

/-- A session comes to the same end from each of its moments. -/
theorem Reaches.last_eq {limit : Option Nat} {m m' : Moment E α} (h : Reaches limit m m') :
  (m'.rest.run limit m'.emitter).value.last = (m.rest.run limit m.emitter).value.last
  := by
  induction h with
  | refl => rfl
  | tail _ hlast ih => rw [hlast.last_eq, ih]

end Moment

end RenderKernel.Code
