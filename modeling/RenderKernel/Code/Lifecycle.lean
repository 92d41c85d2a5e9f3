import RenderKernel.Code.Context
import RenderKernel.Processor.Verification

/-!
# The life of the code runtime

A `Lifecycle` verifies the processor, creates a context when one is first asked for, and
retires it in the end.  Contexts are known by their numbers; those that were created stay
known, so that a user who holds on to one can still ask it.
-/

namespace RenderKernel.Code

open Processor

/-- The code runtime over its whole life. -/
structure Lifecycle (E : Type) where
  /-- The emitter with which a context is created. -/
  fresh : E
  /-- What the processor offers. -/
  offers : Detector
  state : State := .uninitialized
  /-- The options that the runtime was brought up with. -/
  options : Option Options := none
  /-- The number of the context in use. -/
  current : Option Nat := none
  /-- Every context that was ever created. -/
  contexts : List (Context E) := []

namespace Lifecycle

variable {E α : Type} [Emitter E]

/-- The record of the runtime becoming ready. -/
def readyRecord (count : Nat) : LogRecord :=
  ⟨.info, "JIT runtime ready, host offers " ++ toString count ++ " required cpu features"⟩

/-- Verifies the processor and makes the runtime ready, and tells whether it did so: only the
first time does this have an effect. -/
def bringUp (l : Lifecycle E) (o : Options) :
    Logged (Except Lacking Bool × Lifecycle E) := do
  match l.state with
  | .ready =>
    Logged.log .warn "JIT runtime already initialised, ignoring"
    return (.ok false, l)
  | .shutDown =>
    Logged.log .warn "JIT runtime has been shut down and cannot be initialised again"
    return (.ok false, l)
  | .uninitialized =>
    match ← verify l.offers o.required with
    | .error lacking => return (.error lacking, l)
    | .ok () =>
      Logged.logAll [readyRecord o.required.length]
      return (.ok true, { l with options := some o, state := .ready })

/-- The number of the context in use, which is created the first time. -/
def acquire (l : Lifecycle E) : Logged (Except Fault Nat × Lifecycle E) := do
  if l.state ≠ .ready then
    return (.error (.notReady l.state), l)
  else
    match l.current with
    | some number => return (.ok number, l)
    | none =>
      let context : Context E :=
        { emitter := l.fresh, maxLiveRegions := l.options.bind (·.maxLiveRegions) }
      let number := l.contexts.length
      Logged.log .debug "created JIT runtime instance"
      return (.ok number, { l with current := some number, contexts := l.contexts ++ [context] })

/-- The record of the shutdown. -/
def shutdownRecord (count : Nat) : LogRecord :=
  ⟨.info, "JIT runtime shut down, released " ++ toString count ++ " code regions"⟩

/-- Retires the context in use, and tells how many regions were released. -/
def retireCurrent (l : Lifecycle E) : Nat × Lifecycle E :=
  match l.current with
  | none => (0, l)
  | some number =>
    match l.contexts[number]? with
    | none => (0, { l with current := none })
    | some context =>
      let (count, context) := context.retire
      (count, { l with current := none, contexts := l.contexts.set number context })

/-- Shuts the runtime down for good, and tells how many regions were released. -/
def shutdown (l : Lifecycle E) : Logged (Nat × Lifecycle E) := do
  if l.state = .shutDown then
    Logged.log .warn "JIT runtime already shut down"
    return (0, l)
  else
    let (count, l) := l.retireCurrent
    Logged.logAll [shutdownRecord count]
    return (count, { l with state := .shutDown })

/-- Carries out an operation on a context. -/
def onContext (l : Lifecycle E) (number : Nat)
    (operation : Context E → Logged (α × Context E)) : Option (Logged (α × Lifecycle E)) :=
  l.contexts[number]?.map fun context => do
    let (answer, context) ← operation context
    return (answer, { l with contexts := l.contexts.set number context })

end Lifecycle

end RenderKernel.Code
