import RenderKernel.Proofs.Code.Lease

/-!
# Programs that share the code runtime

A program has one runtime and keeps every lease of it under a handle.  It makes requests, one
after another, until one of them aborts it.
-/

namespace RenderKernel.Code

open Processor

/-- What a program can ask for. -/
inductive Request : Type 1
  | lease (o : Options)
  /-- Drops the lease with a handle. -/
  | drop (handle : Nat)
  | shutdown
  /-- Asks for the context, relying on the runtime being ready. -/
  | demand
  | acquire
  | state
  /-- Asks a context. -/
  | use (call : Call) (hcall : call.number?.isSome = true)

/-- What a request is answered, unless the program is aborted. -/
inductive Response
  | leased (lease : Lease)
  | dropped (lease : Lease)
  | shutDown
  | demanded (answer : Ending Nat)
  | acquired (answer : Except Fault Nat)
  | state (s : State)
  | used (answer : Answer)
  /-- No lease with the handle is outstanding. -/
  | unknown

def Request.isShutdown : Request → Bool
  | .shutdown => true
  | _ => false

def Response.lease? : Response → Option Lease
  | .leased lease => some lease
  | _ => none

/-- The number of the context that is handed out. -/
def Response.context? : Response → Option Nat
  | .leased lease => some lease.context
  | .demanded (.done number) => some number
  | .acquired (.ok number) => some number
  | _ => none

/-- A program that shares a runtime.  The handle of a lease is the number of those before it. -/
structure Program (E : Type) where
  runtime : Lifecycle E
  /-- Every lease that was ever given. -/
  leases : List Lease := []
  /-- The handles of the leases that were dropped. -/
  dropped : List Nat := []

namespace Program

variable {E : Type}

/-- The lease with a handle, unless it was dropped. -/
def outstanding? (p : Program E) (handle : Nat) : Option Lease :=
  if handle ∈ p.dropped then none else p.leases[handle]?

/-- An outstanding lease was given under its handle, which was not dropped. -/
theorem getElem?_of_outstanding? {p : Program E} {handle : Nat} {lease : Lease}
    (h : p.outstanding? handle = some lease) :
  handle ∉ p.dropped ∧ p.leases[handle]? = some lease
  := by
  rw [outstanding?] at h
  split at h
  · cases h
  · rename_i hkept
    exact ⟨hkept, h⟩

variable [Emitter E]

/-- Carries out a request. -/
def perform (p : Program E) : Request → Logged (Except Abort Response × Program E)
  | .lease o => do
    let (answer, runtime) ← p.runtime.lease o
    match answer with
    | .ok lease => return (.ok (.leased lease), { p with runtime, leases := p.leases ++ [lease] })
    | .error abort => return (.error abort, { p with runtime })
  | .drop handle =>
    match p.outstanding? handle with
    | none => return (.ok .unknown, p)
    | some lease => do
      let runtime ← p.runtime.dropLease lease
      return (.ok (.dropped lease), { p with runtime, dropped := handle :: p.dropped })
  | .shutdown => do
    let (_, runtime) ← p.runtime.shutdown
    return (.ok .shutDown, { p with runtime })
  | .demand => do
    let (answer, runtime) ← p.runtime.demand
    return (.ok (.demanded answer), { p with runtime })
  | .acquire => do
    let (answer, runtime) ← p.runtime.acquire
    return (.ok (.acquired answer), { p with runtime })
  | .state => return (.ok (.state p.runtime.state), p)
  | .use call _ => do
    let (answer, runtime) ← p.runtime.perform call
    return (.ok (.used answer), { p with runtime })

/-! ### Turns -/

variable {p p' : Program E} {request : Request} {response : Response}

/-- What a request can be answered, and what it makes of the program, if that goes on. -/
inductive Turn (p : Program E) : Request → Response → Program E → Prop
  | leased {o : Options} {lease : Lease} {runtime : Lifecycle E}
      (hlease : (p.runtime.lease o).value = (.ok lease, runtime)) :
    Turn p (.lease o) (.leased lease) { p with runtime, leases := p.leases ++ [lease] }
  | closed {handle : Nat} {lease : Lease} (hlease : p.outstanding? handle = some lease)
      (howner : lease.owner = true) :
    Turn p (.drop handle) (.dropped lease)
      { p with runtime := p.runtime.after .shutdown, dropped := handle :: p.dropped }
  | returned {handle : Nat} {lease : Lease} (hlease : p.outstanding? handle = some lease)
      (howner : lease.owner = false) :
    Turn p (.drop handle) (.dropped lease) { p with dropped := handle :: p.dropped }
  | unknown {handle : Nat} (hlease : p.outstanding? handle = none) :
    Turn p (.drop handle) .unknown p
  | shutDown : Turn p .shutdown .shutDown { p with runtime := p.runtime.after .shutdown }
  | demanded :
    Turn p .demand (.demanded p.runtime.demand.value.1)
      { p with runtime := p.runtime.after .acquire }
  | acquired :
    Turn p .acquire (.acquired p.runtime.acquire.value.1)
      { p with runtime := p.runtime.after .acquire }
  | told : Turn p .state (.state p.runtime.state) p
  | used {call : Call} (hcall : call.number?.isSome = true) :
    Turn p (.use call hcall) (.used (p.runtime.perform call).value.1)
      { p with runtime := p.runtime.after call }

/-- Dropping a lease shuts the runtime down if the lease owns it. -/
theorem perform_drop {handle : Nat} {lease : Lease} (h : p.outstanding? handle = some lease) :
  (p.perform (.drop handle)).value
    = (.ok (.dropped lease),
        { p with
          runtime := if lease.owner = true then p.runtime.after .shutdown else p.runtime
          dropped := handle :: p.dropped })
  := by
  rw [perform, h]
  simp only [Logged.value_bind, Lifecycle.dropLease]
  cases lease.owner with
  | true => rfl
  | false => rfl

/-- Demanding the context has the effect of acquiring it, and gives or drops no lease. -/
theorem perform_demand (p : Program E) :
  (p.perform .demand).value
    = (.ok (.demanded p.runtime.demand.value.1), { p with runtime := p.runtime.after .acquire })
  := by
  rw [← p.runtime.runtime_demand]
  rfl

/-- Every request that is answered is a turn. -/
theorem Turn.of_perform (h : (p.perform request).value = (.ok response, p')) :
  Turn p request response p'
  := by
  cases request with
  | lease o =>
      rcases hlease : (p.runtime.lease o).value with ⟨answer, runtime⟩
      rw [perform, Logged.value_bind, hlease] at h
      cases answer with
      | ok lease =>
          obtain ⟨rfl, rfl⟩ := h
          exact .leased hlease
      | error abort => cases h
  | drop handle =>
      cases hlease : p.outstanding? handle with
      | none =>
          rw [perform, hlease] at h
          obtain ⟨rfl, rfl⟩ := h
          exact .unknown hlease
      | some lease =>
          rw [perform_drop hlease] at h
          obtain ⟨rfl, rfl⟩ := h
          cases howner : lease.owner with
          | true => exact .closed hlease howner
          | false => exact .returned hlease howner
  | shutdown =>
      obtain ⟨rfl, rfl⟩ := h
      exact .shutDown
  | demand =>
      rw [perform_demand] at h
      obtain ⟨rfl, rfl⟩ := h
      exact .demanded
  | acquire =>
      obtain ⟨rfl, rfl⟩ := h
      exact .acquired
  | state =>
      obtain ⟨rfl, rfl⟩ := h
      exact .told
  | use call hcall =>
      obtain ⟨rfl, rfl⟩ := h
      exact .used hcall

/-- Whether a request shuts the runtime down, be it as the owner of a lease. -/
def closes : Request → Response → Bool
  | .shutdown, _ => true
  | .drop _, .dropped lease => lease.owner
  | _, _ => false

/-- Other requests than those for leases leave the state of the runtime, or shut it down. -/
theorem Turn.state_eq (h : Turn p request response p') (hlease : ∀ o, request ≠ .lease o) :
  p'.runtime.state = if closes request response then .shutDown else p.runtime.state
  := by
  cases h with
  | @leased o => exact absurd rfl (hlease o)
  | closed hkept howner =>
      rw [closes, if_pos howner]
      apply Lifecycle.state_after_shutdown
  | returned hkept howner => simp [closes, howner]
  | shutDown => apply Lifecycle.state_after_shutdown
  | demanded | acquired => apply Lifecycle.state_after_acquire
  | used hcall => exact p.runtime.state_after_of_number? hcall
  | unknown | told => rfl

/-! ### Runs -/

/-- The requests of a program with their answers, the last one at the end, and the program after
them.  A request that aborts the program is not among them. -/
inductive Run (p : Program E) : List (Request × Response) → Program E → Prop
  | start : Run p [] p
  | request {history : List (Request × Response)} {p₁ p₂ : Program E} {response : Response}
      (hrun : Run p history p₁) (request : Request)
      (hrequest : (p₁.perform request).value = (.ok response, p₂)) :
    Run p (history ++ [(request, response)]) p₂

end Program

end RenderKernel.Code
