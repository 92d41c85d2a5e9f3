import RenderKernel.Proofs.Code.Ledger

/-!
# Runtimes that were shut down

Over an executable memory a runtime that was shut down is closed: its contexts are retired and
hold no regions, whoever still has one can emit nothing and release nothing, and no call changes
anything any more.
-/

namespace RenderKernel.Code

open Processor

/-! ### Contexts -/

namespace Context

variable {c c' : Context HostedMemory}

/-- A context that holds no regions once it is retired. -/
def Spent (c : Context HostedMemory) : Prop := c.retired = true → c.emitter.memory.live = []

/-- A step leaves no region in a context that is retired, if that held before. -/
theorem Step.spent (hstep : Step c c') (h : c.Spent) :
  c'.Spent
  := by
  intro hretired
  cases hstep with
  | withEmitter _ s =>
      rw [retired_withEmitter] at hretired
      rw [withEmitter_of_retired hretired]
      apply h hretired
  | release _ id =>
      have hempty : c.emitter.memory.live = [] := h hretired
      have hlive : (c.release id).value.2.emitter.memory.live
          = c.emitter.memory.live.filter (·.1 ≠ id) := rfl
      rw [hlive, hempty]
      rfl
  | retire => rfl

/-- Whatever becomes of a context, it has no regions once it is retired. -/
theorem Becomes.spent (hbecomes : c.Becomes c') (h : c.Spent) :
  c'.Spent
  := by
  induction hbecomes with
  | refl => apply h
  | tail _ hlast ih => apply hlast.spent ih

/-- A context without regions has none to release. -/
theorem release_of_empty (h : c.emitter.memory.live = []) (id : RegionId) :
  (c.release id).value = (false, c)
  := by
  rcases c with ⟨⟨host, requests, ⟨live, next⟩⟩, maxLiveRegions, retired⟩
  obtain rfl : live = [] := h
  rfl

/-- An empty memory has no live regions. -/
theorem liveRegions_of_empty (h : c.emitter.memory.live = []) :
  c.liveRegions = 0
  := congrArg List.length h

/-- An empty memory has no live bytes. -/
theorem liveBytes_of_empty (h : c.emitter.memory.live = []) :
  c.liveBytes = 0
  := congrArg (List.foldl _ 0) h

end Context

/-! ### Runtimes -/

namespace Lifecycle

variable {host : Nat → Placement} {l : Lifecycle HostedMemory}

/-- A runtime whose users are refused, and which no call changes. -/
structure Closed (l : Lifecycle HostedMemory) : Prop where
  bringUp (o : Options) : (l.perform (.bringUp o)).value = (.broughtUp (.ok false), l)
  acquire : (l.perform .acquire).value = (.acquired (.error (.notReady .shutDown)), l)
  shutdown : (l.perform .shutdown).value = (.shutDown 0, l)
  retired : ∀ c ∈ l.contexts, c.retired = true
  emit {n : Nat} (code : Bytes) : n < l.contexts.length →
    (l.perform (.emit n code)).value = (.emitted (.done (.error (.notReady .shutDown))), l)
  withEmitter {α : Type} {n : Nat} (s : Session α) : n < l.contexts.length →
    (l.perform (.withEmitter n s)).value = (.carriedOut (.error (.notReady .shutDown)), l)
  release {n : Nat} (id : RegionId) : n < l.contexts.length →
    (l.perform (.release n id)).value = (.released false, l)
  live {n : Nat} : n < l.contexts.length → (l.perform (.live n)).value = (.live 0 0, l)

/-- An operation that changes no context changes nothing. -/
theorem ask_of_unchanged {α : Type} {number : Nat} {a : α} {answer : α → Answer} {b : Answer}
    {operation : Context HostedMemory → Logged (α × Context HostedMemory)}
    (hnumber : number < l.contexts.length)
    (hoperation : ∀ c ∈ l.contexts, (operation c).value = (a, c)) (hanswer : answer a = b) :
  (l.ask number operation answer).value = (b, l)
  := by
  have hunchanged := hoperation _ (List.getElem_mem hnumber)
  rw [ask_of_some (List.getElem?_eq_getElem hnumber), hunchanged, hanswer, List.set_getElem_self]

/-- A runtime that is shut down is closed if all its contexts are retired and have no regions. -/
theorem closed_of_retired (hstate : l.state = .shutDown)
    (hcontexts : ∀ c ∈ l.contexts, c.retired = true ∧ c.emitter.memory.live = []) :
  l.Closed
  := by
  have hne (s : State) (hs : s ≠ .shutDown) : l.state ≠ s := by
    rw [hstate]
    apply hs.symm
  constructor
  · intro o
    rw [perform, Logged.value_bind, bringUp_of_ne_uninitialized (hne _ (by decide))]
    rfl
  · rw [perform, acquire, if_pos (hne _ (by decide)), hstate]
    rfl
  · rw [perform, Lifecycle.shutdown, if_pos hstate]
    rfl
  · intro c hc
    apply (hcontexts c hc).1
  · intro n code hn
    apply ask_of_unchanged hn
    · intro c hc
      apply Context.emit_of_retired (hcontexts c hc).1
    · rfl
  · intro α n s hn
    apply ask_of_unchanged hn
    · intro c hc
      apply Context.withEmitter_of_retired (hcontexts c hc).1
    · rfl
  · intro n id hn
    apply ask_of_unchanged hn
    · intro c hc
      apply Context.release_of_empty (hcontexts c hc).2
    · rfl
  · intro n hn
    apply ask_of_unchanged hn
    · intro c hc
      rw [Context.liveRegions_of_empty (hcontexts c hc).2,
        Context.liveBytes_of_empty (hcontexts c hc).2]
      rfl
    · rfl

/-- After the shutdown the contexts hold no regions. -/
theorem Stage.live_eq_nil (h : Stage { host } l) (hstate : l.state = .shutDown)
    {c : Context HostedMemory} (hc : c ∈ l.contexts) :
  c.emitter.memory.live = []
  := by
  obtain ⟨o, hbecomes⟩ := h.becomes hc
  have hinitial : (Context.initial { host } o).Spent := by
    intro hretired
    cases hretired
  exact hbecomes.spent hinitial (h.retired_of_mem hstate hc)

/-- In every stage of a run, a runtime that is shut down is closed. -/
theorem Stage.closed (h : Stage { host } l) (hstate : l.state = .shutDown) :
  l.Closed
  := by
  apply closed_of_retired hstate
  intro c hc
  exact ⟨h.retired_of_mem hstate hc, h.live_eq_nil hstate hc⟩

/-- Regions are conserved in every run, and after the shutdown the runtime is closed for ever. -/
theorem Run.conserves_and_closes {offers : Detector} {history : List (Call × Answer)}
    (hrun : Run { fresh := { host }, offers } history l) :
  (Ledger.ofHistory history).emissions
      = (Ledger.ofHistory history).releases + (Ledger.ofHistory history).releasedTogether
        + (Ledger.ofHistory history).retired + l.liveRegions
    ∧ ∀ answer, (.shutdown, answer) ∈ history → l.Closed
  := by
  constructor
  · rw [← hrun.explains, Nat.zero_add]
  · intro answer hmem
    apply hrun.stage.closed (hrun.state_of_shutdown hmem)

/-- The runtime of a program in use, after a number of emissions and with some regions live. -/
def inUse (emissions : Nat) (live : List (RegionId × Bytes)) : Lifecycle HostedMemory :=
  let memory : HostedMemory :=
    { HostedMemory.roomy with requests := emissions, memory := { live, next := emissions } }
  { ofProgram with
    state := .ready
    options := some {}
    current := some 0
    contexts := [.initial memory {}] }

/-- A session that makes a region, releases one that was there before, and then all; that makes
another, fails with the next, and panics. -/
def churn : Session Unit :=
  .emit [144, 195] fun _ => .release ⟨0⟩ fun _ => .releaseAll fun _ => .emit [195] fun _ =>
    .emit [] fun _ => .panic "churn"

/-- A history with emissions and releases of all kinds, also after the shutdown. -/
def bustle : List (Call × Answer) :=
  [(.bringUp {}, .broughtUp (.ok true)), (.acquire, .acquired (.ok 0)),
    (.emit 0 [195], .emitted (.done (.ok ⟨⟨0⟩, 4294967296, [195]⟩))),
    (.withEmitter 0 churn, .carriedOut (.ok
      [.emitted (.ok ⟨⟨1⟩, 8589934592, [144, 195]⟩), .released true, .releasedAll 1,
        .emitted (.ok ⟨⟨2⟩, 12884901888, [195]⟩), .emitted (.error .emptyCode)])),
    (.shutdown, .shutDown 1), (.release 0 ⟨2⟩, .released false),
    (.emit 0 [195], .emitted (.done (.error (.notReady .shutDown))))]

/-- Emissions inside and outside of a session, releases of both kinds and a shutdown balance, and the
shutdown closes the runtime. -/
theorem bustle_conserves_and_closes :
  ∃ l, Run ofProgram bustle l
    ∧ (Ledger.ofHistory bustle).emissions
        = (Ledger.ofHistory bustle).releases + (Ledger.ofHistory bustle).releasedTogether
          + (Ledger.ofHistory bustle).retired + l.liveRegions
    ∧ ∀ answer, (.shutdown, answer) ∈ bustle → l.Closed
  := by
  have hacquire : Run ofProgram (bustle.take 2) (inUse 0 []) :=
    Run.start.call _ (perform_bringUp_ofProgram none) |>.call .acquire rfl
  have hemit : Run ofProgram (bustle.take 3) (inUse 1 [(⟨0⟩, [195])]) :=
    hacquire.call (.emit 0 [195]) (by cbv)
  have hchurn : Run ofProgram (bustle.take 4) (inUse 3 [(⟨2⟩, [195])]) :=
    hemit.call (.withEmitter 0 churn) (by cbv)
  have hrun : Run ofProgram bustle _ := hchurn.call .shutdown rfl
    |>.call (.release 0 ⟨2⟩) rfl |>.call (.emit 0 [195]) rfl
  refine ⟨_, hrun, ?_⟩
  apply Run.conserves_and_closes hrun

end Lifecycle

end RenderKernel.Code
