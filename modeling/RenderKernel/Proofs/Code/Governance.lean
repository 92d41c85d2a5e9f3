import RenderKernel.Proofs.Code.Closure
import RenderKernel.Proofs.Code.Program

/-!
# The lease that governs the runtime

In every run of a program the first lease owns the runtime, which is ready as long as that lease
is kept and nobody shuts it down; all leases are of one context.
-/

namespace RenderKernel.Code.Program

open Processor

variable {E : Type}

/-! ### Histories -/

/-- A history has a request to shut down if one of its turns is one. -/
theorem mem_shutdown_iff (history : List (Request × Response)) :
  .shutdown ∈ history.map Prod.fst ↔ history.any (·.1.isShutdown) = true
  := by
  rw [List.mem_map, List.any_eq_true]
  constructor
  · rintro ⟨turn, hturn, hrequest⟩
    use turn, hturn
    rw [hrequest]
    rfl
  · rintro ⟨⟨request, response⟩, hturn, hshutdown⟩
    cases request with
    | shutdown => exact ⟨_, hturn, rfl⟩
    | _ => cases hshutdown

/-- Whether the runtime was shut down, by a request or with the first lease. -/
def ended (history : List (Request × Response)) (dropped : List Nat) : Bool :=
  history.any (·.1.isShutdown) || dropped.contains 0

/-- Of the requests, only that to shut the runtime down ends it. -/
theorem ended_append (history : List (Request × Response)) (dropped : List Nat)
    (request : Request) (response : Response) :
  ended (history ++ [(request, response)]) dropped
    = (ended history dropped || request.isShutdown)
  := by
  simp [ended, Bool.or_right_comm]

/-- Dropping a lease ends the runtime only if it is the first one. -/
theorem ended_cons (history : List (Request × Response)) (handle : Nat) (dropped : List Nat) :
  ended history (handle :: dropped) = (ended history dropped || handle == 0)
  := by
  rw [ended, ended, List.contains_cons, Bool.or_assoc, Bool.or_comm (dropped.contains 0),
    Bool.beq_comm]

variable [Emitter E] {fresh : E} {p p' : Program E} {request : Request} {response : Response}
  {history : List (Request × Response)}

/-! ### What turns do -/

/-- No turn leaves the stages through which a runtime goes. -/
theorem Turn.stage (h : Turn p request response p') (hstage : p.runtime.Stage fresh) :
  p'.runtime.Stage fresh
  := by
  cases h with
  | leased hlease => exact (hstage.of_lease hlease).2.1
  | returned | unknown | told => exact hstage
  | _ => exact hstage.after _

/-- A turn adds the lease that it gives, if any, behind those that were given before. -/
theorem Turn.leases_eq (h : Turn p request response p') :
  p'.leases = p.leases ++ response.lease?.toList
  := by
  cases h with
  | leased => rfl
  | _ => exact (List.append_nil _).symm

/-- A turn drops the handle that a successful request to drop names, and no other. -/
theorem Turn.mem_dropped_iff (h : Turn p request response p') (handle : Nat) :
  handle ∈ p'.dropped
    ↔ handle ∈ p.dropped ∨ ∃ lease, (request, response) = (.drop handle, .dropped lease)
  := by
  cases h with
  | closed | returned => simp [or_comm, eq_comm]
  | _ => simp

/-- A runtime that has a context keeps it in every turn. -/
theorem Turn.contexts_ne_nil (h : Turn p request response p') (hstage : p.runtime.Stage fresh)
    (hcontexts : p.runtime.contexts ≠ []) :
  p'.runtime.contexts ≠ []
  := by
  cases h with
  | leased hlease =>
      obtain ⟨-, -, -, -, hcontexts'⟩ := hstage.of_lease hlease
      exact hcontexts'
  | returned | unknown | told => exact hcontexts
  | _ => exact (Lifecycle.perform_turn _ _).contexts_ne_nil hcontexts

/-- What the history of a program and its leases tell about its runtime. -/
structure Recorded (fresh : E) (history : List (Request × Response)) (p : Program E) : Prop where
  stage : p.runtime.Stage fresh
  leases_eq : p.leases = history.filterMap (·.2.lease?)
  mem_dropped_iff (handle : Nat) :
    handle ∈ p.dropped ↔ ∃ lease, (.drop handle, .dropped lease) ∈ history
  state_eq : p.runtime.state
    = if ended history p.dropped then .shutDown
      else if p.leases = [] then .uninitialized else .ready
  /-- All leases are of the same context, and the first owns the runtime. -/
  lease_eq {handle : Nat} {lease : Lease} :
    p.leases[handle]? = some lease → lease = ⟨0, decide (handle = 0)⟩
  context_eq {request : Request} {response : Response} {number : Nat} :
    (request, response) ∈ history → response.context? = some number →
      number = 0 ∧ p.runtime.contexts ≠ []

namespace Recorded

/-- As long as the runtime was not shut down, nothing in the history has ended it. -/
theorem ended_eq_false (h : Recorded fresh history p) (hopen : p.runtime.state ≠ .shutDown) :
  ended history p.dropped = false
  := by
  by_contra hended
  apply hopen
  rw [h.state_eq, if_pos (eq_true_of_ne_false hended)]

/-- Unless it was shut down, the runtime is uninitialized exactly until the first lease is given. -/
theorem uninitialized_iff (h : Recorded fresh history p) (hopen : p.runtime.state ≠ .shutDown) :
  p.runtime.state = .uninitialized ↔ p.leases = []
  := by
  rw [h.state_eq, h.ended_eq_false hopen]
  simp

/-- Of the outstanding leases, the first one and no other owns the runtime. -/
theorem owner_iff (h : Recorded fresh history p) {handle : Nat} {lease : Lease}
    (hlease : p.outstanding? handle = some lease) :
  lease.owner = true ↔ handle = 0
  := by
  rw [h.lease_eq (getElem?_of_outstanding? hlease).2]
  simp

/-- A turn leaves the state that the history tells.  A lease that is given shows that the runtime had not
been shut down, and after it the runtime is ready. -/
theorem state_turn (hturn : Turn p request response p') (h : Recorded fresh history p) :
  p'.runtime.state
    = if ended (history ++ [(request, response)]) p'.dropped then .shutDown
      else if p'.leases = [] then .uninitialized else .ready
  := by
  rw [ended_append]
  cases hturn with
  | leased hlease =>
      obtain ⟨hopen, -, -, hready, -⟩ := h.stage.of_lease hlease
      simp [hready, h.ended_eq_false hopen, Request.isShutdown]
  | closed hlease howner =>
      obtain rfl := (h.owner_iff hlease).mp howner
      simp [p.runtime.state_after_shutdown, ended]
  | @returned handle lease hlease howner =>
      have hne : handle ≠ 0 := by
        intro hzero
        rw [(h.owner_iff hlease).mpr hzero] at howner
        cases howner
      simp [h.state_eq, ended_cons, hne, Request.isShutdown]
  | shutDown => simp [p.runtime.state_after_shutdown, Request.isShutdown]
  | demanded | acquired => simp [p.runtime.state_after_acquire, h.state_eq, Request.isShutdown]
  | used hcall =>
      simp [p.runtime.state_after_of_number? hcall, h.state_eq, Request.isShutdown]
  | unknown | told => simp [h.state_eq, Request.isShutdown]

/-- A turn keeps the first lease the only one that owns the runtime.  A new lease comes last, and owns the
runtime only if it is also the first. -/
theorem lease_turn (hturn : Turn p request response p') (h : Recorded fresh history p)
    {handle : Nat} {lease : Lease} (hlease : p'.leases[handle]? = some lease) :
  lease = ⟨0, decide (handle = 0)⟩
  := by
  cases hturn with
  | leased hgiven =>
      obtain ⟨hopen, -, rfl, -, -⟩ := h.stage.of_lease hgiven
      rw [List.getElem?_append] at hlease
      split at hlease
      · exact h.lease_eq hlease
      · rename_i hlt
        obtain ⟨hzero, rfl⟩ := Lifecycle.eq_zero_of_getElem?_singleton hlease
        have hlast : handle = p.leases.length := by omega
        simp only [hlast, h.uninitialized_iff hopen, List.length_eq_zero_iff]
  | _ => exact h.lease_eq hlease

/-- Every context that a turn answers with is the first one, which the runtime has from then on. -/
theorem context_turn (hturn : Turn p request response p') (h : Recorded fresh history p)
    {number : Nat} (hnumber : response.context? = some number) :
  number = 0 ∧ p'.runtime.contexts ≠ []
  := by
  cases hturn with
  | leased hlease =>
      obtain ⟨-, -, rfl, -, hcontexts⟩ := h.stage.of_lease hlease
      cases hnumber
      exact ⟨rfl, hcontexts⟩
  | demanded =>
      by_cases hready : p.runtime.state = .ready
      · rw [h.stage.demand_of_ready hready] at hnumber
        cases hnumber
        exact ⟨rfl, (h.stage.acquire_of_ready hready).2⟩
      · rw [Lifecycle.demand_of_ne_ready hready] at hnumber
        cases hnumber
  | acquired =>
      by_cases hready : p.runtime.state = .ready
      · obtain ⟨hacquire, hcontexts⟩ := h.stage.acquire_of_ready hready
        rw [hacquire] at hnumber
        cases hnumber
        exact ⟨rfl, hcontexts⟩
      · rw [Lifecycle.acquire_of_ne_ready hready] at hnumber
        cases hnumber
  | _ => cases hnumber

/-- Each turn keeps what the history tells about the runtime, extended by the turn itself. -/
theorem turn (hturn : Turn p request response p') (h : Recorded fresh history p) :
  Recorded fresh (history ++ [(request, response)]) p'
  := by
  constructor
  · exact hturn.stage h.stage
  · rw [hturn.leases_eq, h.leases_eq, List.filterMap_append]
    cases hlease : response.lease? <;> simp [hlease]
  · intro handle
    rw [hturn.mem_dropped_iff, h.mem_dropped_iff, ← exists_or]
    simp only [List.mem_append, List.mem_singleton, eq_comm]
  · exact h.state_turn hturn
  · exact h.lease_turn hturn
  · intro request' response' number hmem hnumber
    rw [List.mem_append, List.mem_singleton] at hmem
    obtain hbefore | hlast := hmem
    · obtain ⟨hzero, hcontexts⟩ := h.context_eq hbefore hnumber
      exact ⟨hzero, hturn.contexts_ne_nil h.stage hcontexts⟩
    · cases hlast
      exact h.context_turn hturn hnumber

end Recorded

/-- In every run of a program its history tells the state of the runtime, by induction on the
turns. -/
theorem Run.recorded {offers : Detector}
    (hrun : Run { runtime := { fresh, offers } } history p) :
  Recorded fresh history p
  := by
  induction hrun with
  | start =>
      constructor
      · exact .uninitialized offers
      · rfl
      · simp
      · rfl
      · intro handle lease hlease
        cases hlease
      · intro request response number hmem
        cases hmem
  | request _ _ hrequest ih => exact ih.turn (.of_perform hrequest)

/-! ### The lease that governs the runtime -/

namespace Recorded

/-- Every lease that was given is of the first context, and the runtime has one. -/
theorem mem_leases (h : Recorded fresh history p) {lease : Lease} (hlease : lease ∈ p.leases) :
  lease.context = 0 ∧ p.runtime.contexts ≠ []
  := by
  rw [h.leases_eq] at hlease
  obtain ⟨⟨request, response⟩, hturn, hresponse⟩ := List.mem_filterMap.mp hlease
  cases response with
  | leased given =>
      obtain rfl := Option.some.inj hresponse
      exact h.context_eq hturn rfl
  | _ => cases hresponse

/-- A lease that was given is outstanding until its handle was dropped successfully. -/
theorem outstanding?_eq_none_iff (h : Recorded fresh history p) {handle : Nat}
    (hlt : handle < p.leases.length) :
  p.outstanding? handle = none ↔ ∃ lease, (.drop handle, .dropped lease) ∈ history
  := by
  rw [← h.mem_dropped_iff, outstanding?, List.getElem?_eq_getElem hlt]
  simp

/-- The lease that owns the runtime is outstanding once a lease was given, until the first is
dropped. -/
theorem exists_owner_iff (h : Recorded fresh history p) :
  (∃ handle lease, p.outstanding? handle = some lease ∧ lease.owner = true)
    ↔ p.leases ≠ [] ∧ 0 ∉ p.dropped
  := by
  constructor
  · rintro ⟨handle, lease, hlease, howner⟩
    obtain rfl := (h.owner_iff hlease).mp howner
    obtain ⟨hkept, hgiven⟩ := getElem?_of_outstanding? hlease
    constructor
    · intro hempty
      rw [hempty] at hgiven
      cases hgiven
    · exact hkept
  · rintro ⟨hleases, hkept⟩
    obtain ⟨lease, leases, hcons⟩ := List.exists_cons_of_ne_nil hleases
    have hlease : p.outstanding? 0 = some lease := by
      rw [outstanding?, if_neg hkept, hcons]
      rfl
    exact ⟨0, lease, hlease, (h.owner_iff hlease).mpr rfl⟩

/-- The runtime is ready exactly as long as the lease that owns it is outstanding and no request has
shut it down. -/
theorem ready_iff (h : Recorded fresh history p) :
  p.runtime.state = .ready
    ↔ (∃ handle lease, p.outstanding? handle = some lease ∧ lease.owner = true)
      ∧ .shutdown ∉ history.map Prod.fst
  := by
  rw [h.exists_owner_iff, mem_shutdown_iff, h.state_eq, ended]
  by_cases hdropped : 0 ∈ p.dropped
  · simp [hdropped]
  · cases history.any (·.1.isShutdown) <;> simp [hdropped]

/-- After a request to shut down the runtime is shut down for good. -/
theorem state_of_mem_shutdown (h : Recorded fresh history p)
    (hmem : .shutdown ∈ history.map Prod.fst) :
  p.runtime.state = .shutDown
  := by
  rw [h.state_eq, if_pos]
  rw [ended, (mem_shutdown_iff history).mp hmem, Bool.true_or]

/-- Dropping a lease that does not own the runtime, or any lease after a shutdown, only marks its
handle as dropped. -/
theorem perform_drop_of_idle (h : Recorded fresh history p) {handle : Nat} {lease : Lease}
    (hlease : p.outstanding? handle = some lease)
    (hidle : lease.owner = false ∨ .shutdown ∈ history.map Prod.fst) :
  (p.perform (.drop handle)).value
    = (.ok (.dropped lease), { p with dropped := handle :: p.dropped })
  := by
  rw [perform_drop hlease]
  obtain howner | hmem := hidle
  · rw [howner]
    rfl
  · rw [p.runtime.after_shutdown_of_shutDown (h.state_of_mem_shutdown hmem), ite_self]

end Recorded

/-- A user who demands the context panics exactly if the runtime is not ready. -/
theorem demand_panics_iff (h : p.runtime.Stage fresh) :
  (∃ text, (p.perform .demand).value.1 = .ok (.demanded (.panicked text)))
    ↔ p.runtime.state ≠ .ready
  := by
  rw [perform_demand]
  by_cases hready : p.runtime.state = .ready
  · rw [h.demand_of_ready hready]
    simp [hready]
  · rw [Lifecycle.demand_of_ne_ready hready]
    simp [hready]

/-- The program answers a request for a lease as the runtime does. -/
theorem value_perform_lease_fst (p : Program E) (o : Options) :
  (p.perform (.lease o)).value.1 = (p.runtime.lease o).value.1.map .leased
  := by
  rw [perform, Logged.value_bind]
  rcases (p.runtime.lease o).value with ⟨answer, runtime⟩
  cases answer with
  | ok lease => rfl
  | error abort => rfl

/-- A request for a lease aborts the program exactly if the runtime was shut down, or is uninitialized
and lacks a required feature. -/
theorem lease_aborts_iff (p : Program E) (o : Options) :
  (∃ abort, (p.perform (.lease o)).value.1 = .error abort)
    ↔ p.runtime.state = .shutDown ∨ p.runtime.state = .uninitialized
      ∧ ∃ f, (f ∈ o.requiredFeatures ∨ f ∈ o.extraFeatures) ∧ p.runtime.offers f = false
  := by
  have hmap : (∃ abort, (p.perform (.lease o)).value.1 = .error abort)
      ↔ ∃ abort, (p.runtime.lease o).value.1 = .error abort := by
    rw [value_perform_lease_fst]
    cases (p.runtime.lease o).value.1 <;> simp [Except.map]
  rw [hmap, p.runtime.lease_aborts_iff]
  simp only [Options.mem_required]
  simp

/-- Only a request for a lease can abort a program. -/
theorem exists_lease_of_aborts {abort : Abort}
    (h : (p.perform request).value.1 = .error abort) :
  ∃ o, request = .lease o
  := by
  cases request with
  | lease o => exact ⟨o, rfl⟩
  | drop handle =>
      cases hlease : p.outstanding? handle with
      | none =>
          rw [perform, hlease] at h
          cases h
      | some lease =>
          rw [perform_drop hlease] at h
          cases h
  | _ => cases h

/-- What the users of a shared runtime can rely on, whatever has been requested so far. -/
structure Governed (history : List (Request × Response)) (p : Program HostedMemory) : Prop where
  /-- The leases are those that were given, in order. -/
  leases_eq : p.leases = history.filterMap (·.2.lease?)
  /-- A lease is outstanding until its handle is dropped. -/
  outstanding?_eq_none_iff {handle : Nat} : handle < p.leases.length →
    (p.outstanding? handle = none ↔ ∃ lease, (.drop handle, .dropped lease) ∈ history)
  /-- At most one lease that was ever given owns the runtime. -/
  owner_unique {h h' : Nat} {lease lease' : Lease} :
    p.leases[h]? = some lease → p.leases[h']? = some lease' → lease.owner = true →
      lease'.owner = true → h = h'
  /-- The runtime is ready exactly as long as that lease is kept and nobody shuts it down. -/
  ready_iff : p.runtime.state = .ready
    ↔ (∃ handle lease, p.outstanding? handle = some lease ∧ lease.owner = true)
      ∧ .shutdown ∉ history.map Prod.fst
  /-- Dropping another lease does nothing else, nor does dropping it after a shutdown. -/
  drop_eq {handle : Nat} {lease : Lease} : p.outstanding? handle = some lease →
    (lease.owner = false ∨ .shutdown ∈ history.map Prod.fst) →
      (p.perform (.drop handle)).value
        = (.ok (.dropped lease), { p with dropped := handle :: p.dropped })
  /-- All leases are of one context, and everybody gets it. -/
  context_eq : ∃ number,
    (∀ lease ∈ p.leases, lease.context = number ∧ number < p.runtime.contexts.length)
      ∧ ∀ turn ∈ history, ∀ n ∈ turn.2.context?, n = number ∧ number < p.runtime.contexts.length
  /-- A user who relies on the runtime being ready panics exactly if it is not. -/
  demand_panics_iff : (∃ text, (p.perform .demand).value.1 = .ok (.demanded (.panicked text)))
    ↔ p.runtime.state ≠ .ready
  /-- Asking for a lease aborts the program exactly if the runtime was shut down, or is
  uninitialized and some required feature is not offered. -/
  lease_aborts_iff (o : Options) : (∃ abort, (p.perform (.lease o)).value.1 = .error abort)
    ↔ p.runtime.state = .shutDown ∨ p.runtime.state = .uninitialized
      ∧ ∃ f, (f ∈ o.requiredFeatures ∨ f ∈ o.extraFeatures) ∧ p.runtime.offers f = false
  /-- Nothing else aborts it. -/
  aborts {request : Request} {abort : Abort} :
    (p.perform request).value.1 = .error abort → ∃ o, request = .lease o
  /-- Dropping the lease that owns a ready runtime releases every region. -/
  drop_owner {handle : Nat} {lease : Lease} : p.outstanding? handle = some lease →
    lease.owner = true → p.runtime.state = .ready →
      (p.perform (.drop handle)).value.2.runtime.state = .shutDown
        ∧ ∀ c ∈ (p.perform (.drop handle)).value.2.runtime.contexts, c.liveRegions = 0

/-- The first lease of a new runtime governs it in every run of a program. -/
theorem Run.governed {host : Nat → Placement} {offers : Detector} {p : Program HostedMemory}
    (hrun : Run { runtime := { fresh := { host }, offers } } history p) :
  Governed history p
  := by
  have hrecorded := hrun.recorded
  constructor
  · exact hrecorded.leases_eq
  · intro handle hlt
    exact hrecorded.outstanding?_eq_none_iff hlt
  · intro h h' lease lease' hlease hlease' howner howner'
    rw [hrecorded.lease_eq hlease] at howner
    rw [hrecorded.lease_eq hlease'] at howner'
    rw [of_decide_eq_true howner, of_decide_eq_true howner']
  · exact hrecorded.ready_iff
  · intro handle lease hlease hidle
    exact hrecorded.perform_drop_of_idle hlease hidle
  · use 0
    constructor
    · intro lease hlease
      obtain ⟨hcontext, hcontexts⟩ := hrecorded.mem_leases hlease
      exact ⟨hcontext, List.length_pos_iff.mpr hcontexts⟩
    · rintro ⟨request, response⟩ hturn n hn
      obtain ⟨hzero, hcontexts⟩ := hrecorded.context_eq hturn hn
      exact ⟨hzero, List.length_pos_iff.mpr hcontexts⟩
  · exact demand_panics_iff hrecorded.stage
  · exact p.lease_aborts_iff
  · exact exists_lease_of_aborts
  · intro handle lease hlease howner hready
    rw [perform_drop hlease, if_pos howner]
    have hshutDown := p.runtime.state_after_shutdown
    constructor
    · exact hshutDown
    · intro c hc
      have hstage := hrecorded.stage.after .shutdown
      exact Context.liveRegions_of_empty (hstage.live_eq_nil hshutDown hc)

/-- A history of a program that has two leases and asks for the context longer than it may. -/
def tenancy : List (Request × Response) :=
  [(.lease {}, .leased ⟨0, true⟩), (.lease { maxLiveRegions := some 1 }, .leased ⟨0, false⟩),
    (.drop 1, .dropped ⟨0, false⟩), (.demand, .demanded (.done 0)),
    (.use (.emit 0 [195]) rfl, .used (.emitted (.done (.ok ⟨⟨0⟩, 4294967296, [195]⟩)))),
    (.drop 0, .dropped ⟨0, true⟩), (.state, .state .shutDown),
    (.acquire, .acquired (.error (.notReady .shutDown)))]

/-- The first of two leases governs the runtime: it is ready while the second one is dropped, and shut
down with the first. -/
theorem tenancy_governed :
  ∃ p, Run { runtime := Lifecycle.ofProgram } tenancy p ∧ Governed tenancy p
  := by
  have hlease : Run { runtime := Lifecycle.ofProgram } (tenancy.take 1)
      { runtime := .inUse 0 [], leases := [⟨0, true⟩] } :=
    Run.start.request (.lease {}) (by cbv)
  have hborrow : Run { runtime := Lifecycle.ofProgram } (tenancy.take 4)
      { runtime := .inUse 0 [], leases := [⟨0, true⟩, ⟨0, false⟩], dropped := [1] } :=
    hlease.request (.lease { maxLiveRegions := some 1 }) rfl |>.request (.drop 1) rfl
      |>.request .demand rfl
  have hemit : Run { runtime := Lifecycle.ofProgram } (tenancy.take 5)
      { runtime := .inUse 1 [(⟨0⟩, [195])]
        leases := [⟨0, true⟩, ⟨0, false⟩]
        dropped := [1] } :=
    hborrow.request (.use (.emit 0 [195]) rfl) (by cbv)
  have hrun : Run { runtime := Lifecycle.ofProgram } tenancy _ := hemit.request (.drop 0) rfl
    |>.request .state rfl |>.request .acquire rfl
  refine ⟨_, hrun, Run.governed hrun⟩

end RenderKernel.Code.Program
