import RenderKernel.Proofs.Code.Stage

/-!
# How leases are given

A lease is given in two steps: the runtime is brought up, and its context is acquired.  What
comes of either step depends on the state of the runtime, and on what the processor offers as
long as the runtime is uninitialized.
-/

namespace RenderKernel.Code.Lifecycle

open Processor

variable {E : Type} {fresh : E} {l l' : Lifecycle E} {o : Options} {owner : Bool} {lease : Lease}

/-! ### The first step -/

/-- If every required feature is offered, the first caller owns the runtime, which is ready with its
options. -/
theorem ownership_of_offers (hstate : l.state = .uninitialized)
    (hoffers : ∀ f ∈ o.required, l.offers f = true) :
  (l.ownership o).value = (.ok true, { l with options := some o, state := .ready })
  := by
  rw [ownership, Logged.value_bind, bringUp_of_uninitialized hstate, if_pos hoffers]
  rfl

/-- If some required feature is lacking, the first caller is refused with all those that are, and the
runtime stays as it is. -/
theorem ownership_of_lacking (hstate : l.state = .uninitialized)
    (hlacks : ¬∀ f ∈ o.required, l.offers f = true) :
  (l.ownership o).value = (.error (.lacking ⟨o.required.filter (!l.offers ·)⟩), l)
  := by
  rw [ownership, Logged.value_bind, bringUp_of_uninitialized hstate, if_neg hlacks]
  rfl

/-- A later caller does not own the runtime, and leaves it as it is. -/
theorem ownership_of_ne_uninitialized (hstate : l.state ≠ .uninitialized) (o : Options) :
  (l.ownership o).value = (.ok false, l)
  := by
  rw [ownership, Logged.value_bind, bringUp_of_ne_uninitialized hstate]
  rfl

/-- What the first step can come to, if the program is not aborted. -/
theorem ownership_cases (h : (l.ownership o).value = (.ok owner, l')) :
  (l.state = .uninitialized ∧ owner = true ∧ l' = { l with options := some o, state := .ready })
    ∨ l.state ≠ .uninitialized ∧ owner = false ∧ l' = l
  := by
  by_cases hstate : l.state = .uninitialized
  · by_cases hoffers : ∀ f ∈ o.required, l.offers f = true
    · rw [ownership_of_offers hstate hoffers] at h
      obtain ⟨rfl, rfl⟩ := h
      exact .inl ⟨hstate, rfl, rfl⟩
    · rw [ownership_of_lacking hstate hoffers] at h
      cases h
  · rw [ownership_of_ne_uninitialized hstate] at h
    obtain ⟨rfl, rfl⟩ := h
    exact .inr ⟨hstate, rfl, rfl⟩

/-- The first step makes the runtime ready, unless it was shut down. -/
theorem state_of_ownership (h : (l.ownership o).value = (.ok owner, l')) :
  l'.state = if l.state = .shutDown then .shutDown else .ready
  := by
  obtain ⟨hstate, -, rfl⟩ | ⟨hstate, -, rfl⟩ := ownership_cases h
  · rw [hstate]
    rfl
  · revert hstate
    cases l'.state <;> simp

/-- If some required feature is lacking, no lease is given. -/
theorem lease_of_lacking (hstate : l.state = .uninitialized)
    (hlacks : ¬∀ f ∈ o.required, l.offers f = true) :
  (l.lease o).value = (.error (.lacking ⟨o.required.filter (!l.offers ·)⟩), l)
  := by
  rw [Lifecycle.lease, Logged.value_bind, ownership_of_lacking hstate hlacks]
  rfl

/-- After its first step, a lease is what the second step makes of the ownership. -/
theorem lease_of_ownership (h : (l.ownership o).value = (.ok owner, l')) :
  (l.lease o).value = (l'.grant owner).value
  := by
  rw [Lifecycle.lease, Logged.value_bind, h]

/-- A lease that is given is given in two steps. -/
theorem ownership_of_lease (h : (l.lease o).value = (.ok lease, l')) :
  ∃ owner l₁, (l.ownership o).value = (.ok owner, l₁) ∧ (l₁.grant owner).value = (.ok lease, l')
  := by
  rcases hstep : (l.ownership o).value with ⟨answer, l₁⟩
  cases answer with
  | ok owner =>
      rw [lease_of_ownership hstep] at h
      exact ⟨owner, l₁, rfl, h⟩
  | error abort =>
      rw [Lifecycle.lease, Logged.value_bind, hstep] at h
      cases h

/-! ### Runtimes that are not ready -/

/-- There is no context unless the runtime is ready. -/
theorem acquire_of_ne_ready (hstate : l.state ≠ .ready) :
  l.acquire.value = (.error (.notReady l.state), l)
  := by
  rw [acquire, if_pos hstate]
  rfl

/-- Whoever demands the context of a runtime that is not ready panics. -/
theorem demand_of_ne_ready (hstate : l.state ≠ .ready) :
  l.demand.value = (.panicked (unreadyPanic (.notReady l.state)), l)
  := by
  rw [demand, Logged.value_bind, acquire_of_ne_ready hstate]
  rfl

/-- There is no lease unless the runtime is ready at the second step. -/
theorem grant_of_ne_ready (hstate : l.state ≠ .ready) (owner : Bool) :
  (l.grant owner).value = (.error (.unusable (.notReady l.state)), l)
  := by
  rw [grant, Logged.value_bind, acquire_of_ne_ready hstate]
  rfl

/-! ### Runtimes that are ready -/

variable [Emitter E]

/-- A ready runtime has a context to acquire. -/
theorem acquire_of_ready (hstate : l.state = .ready) :
  ∃ number, l.acquire.value = (.ok number, l.after .acquire)
  := by
  have hafter : l.acquire.value.2 = l.after .acquire := rfl
  have hok : ∃ number, l.acquire.value.1 = .ok number := by
    rw [acquire, if_neg (not_not.mpr hstate)]
    cases l.current with
    | some number => exact ⟨number, rfl⟩
    | none => exact ⟨l.contexts.length, rfl⟩
  obtain ⟨number, hnumber⟩ := hok
  use number
  exact Prod.ext hnumber hafter

/-- Demanding the context has the effect of acquiring it. -/
theorem runtime_demand (l : Lifecycle E) :
  l.demand.value.2 = l.after .acquire
  := by
  have hafter : l.after .acquire = l.acquire.value.2 := rfl
  rw [hafter, demand, Logged.value_bind]
  rcases l.acquire.value with ⟨answer, l'⟩
  cases answer with
  | ok number => rfl
  | error fault => rfl

/-- If the runtime is ready at the second step, a lease is given, with the effect of acquiring the
context. -/
theorem grant_of_ready (hstate : l.state = .ready) (owner : Bool) :
  ∃ number, (l.grant owner).value = (.ok ⟨number, owner⟩, l.after .acquire)
  := by
  obtain ⟨number, hacquire⟩ := acquire_of_ready hstate
  use number
  rw [grant, Logged.value_bind, hacquire]
  rfl

/-- The second step aborts the program exactly if the runtime is not ready. -/
theorem grant_aborts_iff (l : Lifecycle E) (owner : Bool) :
  (∃ abort, (l.grant owner).value.1 = .error abort) ↔ l.state ≠ .ready
  := by
  by_cases hstate : l.state = .ready
  · obtain ⟨number, hgrant⟩ := grant_of_ready hstate owner
    rw [hgrant]
    simp [hstate]
  · rw [grant_of_ne_ready hstate]
    simp [hstate]

/-- Both steps together abort it exactly if the runtime was shut down or cannot be brought up. -/
theorem lease_aborts_iff (l : Lifecycle E) (o : Options) :
  (∃ abort, (l.lease o).value.1 = .error abort)
    ↔ l.state = .shutDown
      ∨ l.state = .uninitialized ∧ ¬∀ f ∈ o.required, l.offers f = true
  := by
  by_cases hstate : l.state = .uninitialized
  · by_cases hoffers : ∀ f ∈ o.required, l.offers f = true
    · rw [lease_of_ownership (ownership_of_offers hstate hoffers), grant_aborts_iff, hstate]
      simpa using hoffers
    · rw [lease_of_lacking hstate hoffers]
      simp only [hstate, hoffers]
      simp
  · rw [lease_of_ownership (ownership_of_ne_uninitialized hstate o), grant_aborts_iff]
    revert hstate
    cases l.state <;> simp

/-! ### States after calls -/

/-- A call that acquires a context or asks one leaves the state. -/
theorem Turn.state_eq {call : Call} {answer : Answer} (h : Turn l call answer l')
    (hcall : call = .acquire ∨ call.number?.isSome = true) :
  l'.state = l.state
  := by
  cases h with
  | broughtUp | shutDown => rcases hcall with hcall | hcall <;> cases hcall
  | _ => rfl

/-- Acquiring the context does not change the state. -/
theorem state_after_acquire (l : Lifecycle E) :
  (l.after .acquire).state = l.state
  := (l.perform_turn .acquire).state_eq (.inl rfl)

/-- Using a context does not change the state. -/
theorem state_after_of_number? (l : Lifecycle E) {call : Call}
    (hcall : call.number?.isSome = true) :
  (l.after call).state = l.state
  := (l.perform_turn call).state_eq (.inr hcall)

/-- A shutdown leaves the runtime shut down, whatever it was before. -/
theorem state_after_shutdown (l : Lifecycle E) :
  (l.after .shutdown).state = .shutDown
  := (l.perform_turn .shutdown).state_of_shutdown

/-- A second shutdown has no effect. -/
theorem after_shutdown_of_shutDown (hstate : l.state = .shutDown) :
  l.after .shutdown = l
  := by
  rw [after, perform, Logged.value_bind, shutdown, if_pos hstate]
  rfl

/-- The second step does not change the state. -/
theorem state_of_grant (h : (l.grant owner).value = (.ok lease, l')) :
  l'.state = l.state
  := by
  by_cases hstate : l.state = .ready
  · obtain ⟨number, hgrant⟩ := grant_of_ready hstate owner
    rw [hgrant] at h
    obtain ⟨-, rfl⟩ := h
    exact l.state_after_acquire
  · rw [grant_of_ne_ready hstate] at h
    cases h

/-! ### Leases of the only context -/

namespace Stage

/-- Every call leads from one stage of a run to another. -/
theorem after (h : Stage fresh l) (call : Call) :
  Stage fresh (l.after call)
  := h.turn (l.perform_turn call)

/-- The context of a ready runtime is the first at every stage. -/
theorem acquire_of_ready (h : Stage fresh l) (hstate : l.state = .ready) :
  l.acquire.value = (.ok 0, l.after .acquire) ∧ (l.after .acquire).contexts ≠ []
  := by
  obtain ⟨number, hacquire⟩ := Lifecycle.acquire_of_ready hstate
  have hturn : Turn l .acquire (.acquired (.ok number)) (l.after .acquire) := by
    apply Turn.of_perform
    rw [perform, Logged.value_bind, hacquire]
    rfl
  obtain ⟨rfl, hcontexts⟩ := hturn.acquired_eq_zero h
  exact ⟨hacquire, hcontexts⟩

/-- Demanding the context of a runtime that is ready gives the first one. -/
theorem demand_of_ready (h : Stage fresh l) (hstate : l.state = .ready) :
  l.demand.value = (.done 0, l.after .acquire)
  := by
  rw [demand, Logged.value_bind, (h.acquire_of_ready hstate).1]
  rfl

/-- What the second step comes to, if the program is not aborted. -/
theorem of_grant (h : Stage fresh l) (hgrant : (l.grant owner).value = (.ok lease, l')) :
  l.state = .ready ∧ lease = ⟨0, owner⟩ ∧ l' = l.after .acquire ∧ l'.contexts ≠ []
  := by
  by_cases hstate : l.state = .ready
  · obtain ⟨hacquire, hcontexts⟩ := h.acquire_of_ready hstate
    rw [grant, Logged.value_bind, hacquire] at hgrant
    obtain ⟨rfl, rfl⟩ := hgrant
    exact ⟨hstate, rfl, rfl, hcontexts⟩
  · rw [grant_of_ne_ready hstate] at hgrant
    cases hgrant

/-- The first step keeps to the stages, and the runtime is owned exactly by the one who finds it
uninitialized. -/
theorem of_ownership (h : Stage fresh l) (hstep : (l.ownership o).value = (.ok owner, l')) :
  Stage fresh l' ∧ owner = decide (l.state = .uninitialized)
  := by
  obtain ⟨hstate, rfl, rfl⟩ | ⟨hstate, rfl, rfl⟩ := ownership_cases hstep
  · cases h with
    | uninitialized offers => exact ⟨.ready offers o, rfl⟩
    | _ => cases hstate
  · exact ⟨h, (decide_eq_false hstate).symm⟩

/-- A lease is of the first context, and owns the runtime if that was uninitialized. -/
theorem of_lease (h : Stage fresh l) (hlease : (l.lease o).value = (.ok lease, l')) :
  l.state ≠ .shutDown ∧ Stage fresh l' ∧ lease = ⟨0, decide (l.state = .uninitialized)⟩
    ∧ l'.state = .ready ∧ l'.contexts ≠ []
  := by
  obtain ⟨owner, l₁, hstep, hgrant⟩ := ownership_of_lease hlease
  obtain ⟨hstage, rfl⟩ := h.of_ownership hstep
  obtain ⟨hready, rfl, rfl, hcontexts⟩ := hstage.of_grant hgrant
  have hopen : l.state ≠ .shutDown := by
    intro hstate
    rw [state_of_ownership hstep, if_pos hstate] at hready
    cases hready
  exact ⟨hopen, hstage.after .acquire, rfl, (state_after_acquire l₁).trans hready, hcontexts⟩

end Stage

end RenderKernel.Code.Lifecycle
