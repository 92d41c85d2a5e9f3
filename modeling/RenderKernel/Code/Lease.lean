import RenderKernel.Code.Lifecycle

/-!
# Leases of the shared code runtime

One runtime is shared by the whole program.  Bringing it up gives a lease: the first one owns
the runtime, and dropping it shuts the runtime down; later ones only borrow it.  A program that
cannot have its runtime is aborted.

Bringing the runtime up takes two steps, each of them undivided; other users may come in
between.
-/

namespace RenderKernel.Code

open Processor

/-- A share in the runtime. -/
structure Lease where
  /-- The number of the context. -/
  context : Nat
  /-- Whether dropping the lease shuts the runtime down. -/
  owner : Bool
deriving DecidableEq, Repr

/-- Why the program is aborted. -/
inductive Abort where
  | lacking (e : Lacking)
  | unusable (fault : Fault)
deriving DecidableEq, Repr

/-- The text that reports the reason. -/
def Abort.message : Abort → String
  | .lacking e => e.message
  | .unusable fault => fault.message

/-- What an aborted program leaves on its error output. -/
def Abort.lastWords (a : Abort) : String := "fatal: " ++ a.message

/-- The record of an abort. -/
def Abort.record (a : Abort) : LogRecord := ⟨.error, a.message⟩

namespace Lifecycle

variable {E : Type} [Emitter E]

/-- The first step of bringing the runtime up: whether the lease will own it. -/
def ownership (l : Lifecycle E) (o : Options) : Logged (Except Abort Bool × Lifecycle E) := do
  let (answer, l) ← l.bringUp o
  match answer with
  | .ok owner => return (.ok owner, l)
  | .error e =>
    Logged.logAll [(Abort.lacking e).record]
    return (.error (.lacking e), l)

/-- The second step of bringing the runtime up. -/
def grant (l : Lifecycle E) (owner : Bool) : Logged (Except Abort Lease × Lifecycle E) := do
  let (answer, l) ← l.acquire
  match answer with
  | .ok context => return (.ok ⟨context, owner⟩, l)
  | .error fault =>
    Logged.logAll [(Abort.unusable fault).record]
    return (.error (.unusable fault), l)

/-- Brings the runtime up, with nobody coming in between. -/
def lease (l : Lifecycle E) (o : Options) : Logged (Except Abort Lease × Lifecycle E) := do
  let (answer, l) ← l.ownership o
  match answer with
  | .ok owner => l.grant owner
  | .error abort => return (.error abort, l)

/-- Drops a lease. -/
def dropLease (l : Lifecycle E) (lease : Lease) : Logged (Lifecycle E) := do
  if lease.owner then
    let (_, l) ← l.shutdown
    return l
  else
    return l

/-- The text of the panic of a user who relies on the runtime being ready. -/
def unreadyPanic (fault : Fault) : String :=
  "get_instance called outside the ready state: " ++ fault.message

/-- The number of the context in use, for users who rely on the runtime being ready. -/
def demand (l : Lifecycle E) : Logged (Ending Nat × Lifecycle E) := do
  let (answer, l) ← l.acquire
  match answer with
  | .ok number => return (.done number, l)
  | .error fault => return (.panicked (unreadyPanic fault), l)

/-- A lease, as inspection shows it. -/
def leaseFull (l : Lifecycle E) (lease : Lease) : String :=
  let context := (l.contexts[lease.context]?.map Context.full).getD ""
  "JitLifetime \x7b instance: " ++ context ++ ", owner: " ++ toString lease.owner ++ " \x7d"

/-- The runtime of a program at its start. -/
def ofProgram : Lifecycle HostedMemory :=
  { fresh := .roomy, offers := baselineProcessor }

end Lifecycle

end RenderKernel.Code
