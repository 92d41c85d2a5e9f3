import Mathlib.Algebra.BigOperators.Group.List.Basic
import Mathlib.Algebra.GroupWithZero.Nat
import RenderKernel.Code.Session
import RenderKernel.Proofs.Code.Memory

/-!
# The history of an executable memory

An executable memory is what its history says.  A history lists the operations and the answers to
them, and which regions survive it can be read off without the memory, by looking for what comes
after each emission.  The memory that a history leads to has exactly these regions
(`Run.live_eq`), and its counter is the number of regions that were ever made (`Run.next_eq`).
-/

namespace RenderKernel.Code.Memory

/-- What an executable memory can be asked for.  An emission comes with what the host answers if a
mapping is requested. -/
inductive Operation where
  | emit (p : Placement) (code : Bytes)
  | release (id : RegionId)
  | releaseAll

/-- Carries out an operation. -/
def perform (m : Memory) : Operation → Reply × Memory
  | .emit p code =>
    let (answer, m) := (m.emit p code).value
    (.emitted answer, m)
  | .release id =>
    let (wasLive, m) := m.release id
    (.released wasLive, m)
  | .releaseAll =>
    let (count, m) := m.releaseAll
    (.releasedAll count, m)

/-- An operation and the answer to it. -/
abbrev Event : Type := Operation × Reply

namespace Event

/-- The code and the region of a successful emission. -/
def emission? : Event → Option (Bytes × Region)
  | (.emit _ code, .emitted (.ok r)) => some (code, r)
  | _ => none

/-- Whether the region with a number is not live after the event, if it was there before. -/
def ends (id : RegionId) : Event → Bool
  | (.release id', _) => id' = id
  | (.releaseAll, _) => true
  | _ => false

/-- An event that ends the life of regions makes none. -/
theorem emission?_of_ends {event : Event} {id : RegionId} (h : event.ends id = true) :
  event.emission? = none
  := by
  obtain ⟨operation, reply⟩ := event
  cases operation with
  | emit p code => cases h
  | release id' => rfl
  | releaseAll => rfl

end Event

/-- The successful emissions of a history in order: the code and the region of each. -/
def emissions (history : List Event) : List (Bytes × Region) := history.filterMap Event.emission?

/-- The regions that were made and not released later, in the order in which they were made. -/
def survivors : List Event → List Region
  | [] => []
  | event :: later =>
    match event.emission? with
    | some (_, r) => if later.any (Event.ends r.id) then survivors later else r :: survivors later
    | none => survivors later

/-- What a fresh memory becomes, operation by operation. -/
inductive Run : List Event → Memory → Prop
  | fresh : Run [] {}
  | perform {history : List Event} {m m' : Memory} {reply : Reply} (hrun : Run history m)
      (operation : Operation) (hperform : m.perform operation = (reply, m')) :
    Run (history ++ [(operation, reply)]) m'

/-! ### Survivors -/

/-- What comes later takes survivors away, and adds its own. -/
theorem survivors_append (history later : List Event) :
  survivors (history ++ later)
    = (survivors history).filter (fun r => !later.any (Event.ends r.id)) ++ survivors later
  := by
  induction history with
  | nil => rfl
  | cons event history ih =>
      rw [List.cons_append, survivors, survivors, ih]
      cases event.emission? with
      | none => rfl
      | some emission =>
          simp only [List.any_append, Bool.or_eq_true]
          by_cases hends : history.any (Event.ends emission.2.id) = true
          · simp [hends]
          · by_cases hlater : later.any (Event.ends emission.2.id) = true
            · simp [hends, hlater]
            · simp [hends, hlater]

/-- Whatever event comes next, it ends the life of some survivors, and may make a region of its
own. -/
theorem survivors_concat (history : List Event) (event : Event) :
  survivors (history ++ [event])
    = (survivors history).filter (fun r => !event.ends r.id)
      ++ (event.emission?.map Prod.snd).toList
  := by
  rw [survivors_append]
  congr 1
  · simp only [List.any_cons, List.any_nil, Bool.or_false]
  · rw [survivors]
    cases event.emission? with
    | none => rfl
    | some emission => rfl

/-- Survivors were made, in this order. -/
theorem survivors_sublist (history : List Event) :
  (survivors history).Sublist ((emissions history).map Prod.snd)
  := by
  induction history with
  | nil => apply List.Sublist.refl
  | cons event later ih =>
      rw [survivors, emissions, List.filterMap_cons]
      cases event.emission? with
      | none => apply ih
      | some emission =>
          dsimp only
          split
          · apply ih.cons
          · apply ih.cons_cons

/-- An event adds the emission that it is, if any, behind those before. -/
theorem emissions_concat (history : List Event) (event : Event) :
  emissions (history ++ [event]) = emissions history ++ event.emission?.toList
  := by
  rw [emissions, List.filterMap_append, ← emissions]
  cases h : event.emission? with
  | none => simp [h]
  | some emission => simp [h]

/-! ### One operation -/

/-- An operation makes the next region, or it only takes away the regions whose life it ends. -/
theorem perform_cases {m m' : Memory} {operation : Operation} {reply : Reply}
    (hperform : m.perform operation = (reply, m')) :
  (∃ r : Region, Event.emission? (operation, reply) = some (r.code, r) ∧ r.id = ⟨m.next⟩
      ∧ (∀ id, Event.ends id (operation, reply) = false)
      ∧ m' = ⟨(r.id, r.code) :: m.live, m.next + 1⟩)
    ∨ Event.emission? (operation, reply) = none
      ∧ m' = { m with live := m.live.filter fun region => !Event.ends region.1 (operation, reply) }
  := by
  cases operation with
  | emit p code =>
      obtain ⟨rfl, rfl⟩ := Prod.mk.inj hperform
      obtain ⟨fault, he⟩ | ⟨page, -, -, he⟩ := emit_cases m p code
      · apply Or.inr
        simp [he, Event.emission?, Event.ends]
      · apply Or.inl
        use ⟨⟨m.next⟩, page * pageSize.toNat, code⟩
        simp [he, Event.emission?, Event.ends]
  | release id =>
      obtain ⟨rfl, rfl⟩ := Prod.mk.inj hperform
      apply Or.inr
      simp [Event.emission?, Event.ends, eq_comm]
  | releaseAll =>
      obtain ⟨rfl, rfl⟩ := Prod.mk.inj hperform
      apply Or.inr
      simp [Event.emission?, Event.ends]

/-- An emission succeeds exactly if there is code and the host grants a mapping. -/
theorem perform_emit_iff (m : Memory) (p : Placement) (code : Bytes) :
  (∃ r, (m.perform (.emit p code)).1 = .emitted (.ok r)) ↔ code ≠ [] ∧ ∃ page, p = .granted page
  := by
  constructor
  · rintro ⟨r, hr⟩
    obtain ⟨fault, he⟩ | ⟨page, hpage, hcode, -⟩ := emit_cases m p code
    · rw [perform, he] at hr
      cases hr
    · use hcode, page
  · rintro ⟨hcode, page, rfl⟩
    use ⟨⟨m.next⟩, page * pageSize.toNat, code⟩
    rw [perform, emit, if_neg (mt List.isEmpty_iff.mp hcode)]

/-- A failed emission changes nothing. -/
theorem perform_emit_of_error {m m' : Memory} {p : Placement} {code : Bytes} {fault : Fault}
    (h : m.perform (.emit p code) = (.emitted (.error fault), m')) :
  m' = m
  := by
  obtain ⟨hanswer, rfl⟩ := Prod.mk.inj h
  have hfault : (m.emit p code).value = (.error fault, (m.emit p code).value.2) := by
    rw [← Reply.emitted.inj hanswer]
  apply emit_of_error hfault

/-- The answer to a release tells whether its region was live. -/
theorem perform_release_iff (m : Memory) (id : RegionId) :
  (m.perform (.release id)).1 = .released true ↔ id ∈ m.liveIds
  := by
  rw [← release_iff]
  constructor
  · apply Reply.released.inj
  · apply congrArg Reply.released

/-- The live bytes are the sum of the lengths of the live regions. -/
theorem liveBytes_eq_sum (m : Memory) :
  m.liveBytes = (m.live.map fun region => region.2.length).sum
  := by
  rw [liveBytes, List.sum_eq_foldl, List.foldl_map]

/-! ### The memory that a history leads to -/

namespace Run

variable {history : List Event} {m : Memory}

/-- The memory is sound in every run, by induction on the events. -/
theorem sound (hrun : Run history m) :
  m.Sound
  := by
  induction hrun with
  | fresh => apply sound_empty
  | perform hrun operation hperform ih =>
      obtain ⟨-, rfl⟩ := Prod.mk.inj hperform
      cases operation with
      | emit p code => apply ih.emit
      | release id => apply ih.release
      | releaseAll => apply Sound.releaseAll

/-- The live regions are the survivors, the newest first, with their code. -/
theorem live_eq (hrun : Run history m) :
  m.live = ((survivors history).map fun r => (r.id, r.code)).reverse
  := by
  induction hrun with
  | fresh => rfl
  | perform hrun operation hperform ih =>
      rw [survivors_concat]
      obtain ⟨r, hemission, -, hends, rfl⟩ | ⟨hemission, rfl⟩ := perform_cases hperform
      · simp [hemission, hends, ih]
      · simp [hemission, ih, List.filter_reverse, List.filter_map, Function.comp_def]

/-- Every successful emission advances the counter, and nothing else does. -/
theorem next_eq (hrun : Run history m) :
  m.next = (emissions history).length
  := by
  induction hrun with
  | fresh => rfl
  | perform hrun operation hperform ih =>
      rw [emissions_concat, List.length_append, ← ih]
      obtain ⟨r, hemission, -, -, rfl⟩ | ⟨hemission, rfl⟩ := perform_cases hperform
      · rw [hemission]
        rfl
      · rw [hemission]
        rfl

/-- Regions are numbered in the order in which they are made, and hold the code that they are made
of. -/
theorem numbered (hrun : Run history m) {k : Nat} {code : Bytes} {r : Region}
    (hk : (emissions history)[k]? = some (code, r)) :
  r.id = ⟨k⟩ ∧ r.code = code
  := by
  induction hrun with
  | fresh => cases hk
  | @perform history m m' reply hrun operation hperform ih =>
      rw [emissions_concat] at hk
      obtain hlt | hge := Nat.lt_or_ge k (emissions history).length
      · rw [List.getElem?_append_left hlt] at hk
        apply ih hk
      · rw [List.getElem?_append_right hge] at hk
        obtain ⟨made, hemission, hid, -, rfl⟩ | ⟨hemission, -⟩ := perform_cases hperform
        · rw [hemission, Option.toList_some, List.getElem?_singleton] at hk
          split at hk
          · rename_i hlast
            obtain ⟨rfl, rfl⟩ := Prod.mk.inj (Option.some.inj hk)
            rw [hid, hrun.next_eq]
            use congrArg RegionId.mk (Nat.le_antisymm hge (Nat.sub_eq_zero_iff_le.mp hlast))
          · cases hk
        · rw [hemission] at hk
          cases hk

/-- There are as many live regions as survivors of the history. -/
theorem liveRegions_eq (hrun : Run history m) :
  m.liveRegions = (survivors history).length
  := by
  rw [liveRegions, hrun.live_eq, List.length_reverse, List.length_map]

/-- The live bytes are those of the survivors of the history. -/
theorem liveBytes_eq (hrun : Run history m) :
  m.liveBytes = ((survivors history).map Region.length).sum
  := by
  rw [liveBytes_eq_sum, hrun.live_eq, List.map_reverse, List.map_map, List.sum_reverse]
  rfl

/-! ### Numbers of regions -/

/-- The live identifiers are those of the survivors of the history. -/
theorem mem_liveIds_iff (hrun : Run history m) (id : RegionId) :
  id ∈ m.liveIds ↔ ∃ r ∈ survivors history, r.id = id
  := by
  rw [liveIds, hrun.live_eq]
  simp

/-- What is live was made. -/
theorem index_lt_of_mem_liveIds (hrun : Run history m) {id : RegionId} (h : id ∈ m.liveIds) :
  id.index < (emissions history).length
  := by
  rw [← hrun.next_eq]
  apply hrun.sound.lt_next id (List.mem_toFinset.mp h)

/-- A history is a history up to each of its events, and the event. -/
theorem exists_prefix {later : List Event} {m' : Memory} (hrun : Run (history ++ later) m') :
  ∃ m, Run history m
  := by
  induction later using List.reverseRecOn generalizing m' with
  | nil =>
      use m'
      rw [List.append_nil] at hrun
      apply hrun
  | append_singleton later event ih =>
      rw [← List.append_assoc] at hrun
      generalize hall : history ++ later ++ [event] = all at hrun
      cases hrun with
      | fresh => simp at hall
      | perform hrun operation hperform =>
          obtain ⟨hsame, -⟩ := List.append_inj' hall rfl
          rw [← hsame] at hrun
          apply ih hrun

/-- A region that was made and is not live is never live again: what survives of the later events was
made by one of them, and has a later number. -/
theorem notMem_liveIds_append {later : List Event} {m' : Memory} (hrun : Run history m)
    (hrun' : Run (history ++ later) m') {id : RegionId}
    (hmade : id.index < (emissions history).length) (hid : id ∉ m.liveIds) :
  id ∉ m'.liveIds
  := by
  intro hlive
  obtain ⟨r, hr, rfl⟩ := (hrun'.mem_liveIds_iff id).mp hlive
  rw [survivors_append] at hr
  cases List.mem_append.mp hr with
  | inl hbefore =>
      apply hid
      apply (hrun.mem_liveIds_iff _).mpr ⟨r, List.mem_of_mem_filter hbefore, rfl⟩
  | inr hafter =>
      obtain ⟨⟨code, made⟩, hmem, rfl⟩ := List.mem_map.mp ((survivors_sublist later).mem hafter)
      obtain ⟨k, hk⟩ := List.mem_iff_getElem?.mp hmem
      have hall : (emissions (history ++ later))[(emissions history).length + k]?
          = some (code, made) := by
        rw [emissions, List.filterMap_append, ← emissions, List.getElem?_append_right (by omega),
          Nat.add_sub_cancel_left]
        apply hk
      have hnumber := (hrun'.numbered hall).1
      rw [hnumber] at hmade
      exact absurd hmade (by simp)

/-- A region whose life an event ends is not live after it. -/
theorem notMem_liveIds_of_ends {event : Event} (hrun : Run (history ++ [event]) m)
    {id : RegionId} (h : event.ends id = true) :
  id ∉ m.liveIds
  := by
  intro hlive
  obtain ⟨r, hr, rfl⟩ := (hrun.mem_liveIds_iff id).mp hlive
  rw [survivors_concat, Event.emission?_of_ends h, Option.map_none, Option.toList_none,
    List.append_nil, List.mem_filter, h] at hr
  cases hr.2

/-- The memory that a history leads to, read off the history.  Regions are numbered by the
successful emissions, which are those of some code that the host grants a mapping for; a failed one
changes nothing.  The survivors are live, and a release tells whether a region is one of them.  A
live region that an event releases is not live after any later events. -/
theorem replays (hrun : Run history m) :
  (∀ (k : Nat) (code : Bytes) (r : Region), (emissions history)[k]? = some (code, r) →
      r.id = ⟨k⟩ ∧ r.length = code.length)
    ∧ (∀ p code, (∃ r, (m.perform (.emit p code)).1 = .emitted (.ok r))
        ↔ code ≠ [] ∧ ∃ page, p = .granted page)
    ∧ (∀ p code fault m', m.perform (.emit p code) = (.emitted (.error fault), m') → m' = m)
    ∧ (∀ id, id ∈ m.liveIds ↔ ∃ r ∈ survivors history, r.id = id)
    ∧ m.liveRegions = (survivors history).length ∧ m.liveRegions = m.liveIds.card
    ∧ m.liveBytes = ((survivors history).map Region.length).sum
    ∧ (∀ id, (m.perform (.release id)).1 = .released true ↔ id ∈ m.liveIds)
    ∧ (∀ before event after m₀ id, history = before ++ event :: after → Run before m₀ →
        id ∈ m₀.liveIds → event.ends id = true → id ∉ m.liveIds)
  := by
  constructor
  · intro k code r hk
    obtain ⟨hid, hcode⟩ := hrun.numbered hk
    use hid, congrArg List.length hcode
  · use m.perform_emit_iff, fun _ _ _ _ => perform_emit_of_error, hrun.mem_liveIds_iff
    use hrun.liveRegions_eq, hrun.sound.liveRegions_eq, hrun.liveBytes_eq, m.perform_release_iff
    rintro before event after m₀ id rfl hbefore hlive hends
    rw [List.append_cons] at hrun
    obtain ⟨m₁, hrun₁⟩ := hrun.exists_prefix
    apply hrun₁.notMem_liveIds_append hrun _ (hrun₁.notMem_liveIds_of_ends hends)
    rw [emissions_concat, List.length_append]
    apply Nat.lt_add_right _ (hbefore.index_lt_of_mem_liveIds hlive)

end Run

/-- Two regions are made, between a refusal of the host and a release of a region that never was,
and the first of them is released twice. -/
def turnover : List Event :=
  [(.emit (.granted 7) [144, 195], .emitted (.ok ⟨⟨0⟩, 28672, [144, 195]⟩)),
    (.emit (.unavailable "full") [195], .emitted (.error (.allocation "full"))),
    (.release ⟨5⟩, .released false),
    (.emit (.granted 9) [195], .emitted (.ok ⟨⟨1⟩, 36864, [195]⟩)),
    (.release ⟨0⟩, .released true),
    (.release ⟨0⟩, .released false)]

/-- Of two regions that were made, one is released, and the other one is live with its bytes. -/
theorem turnover_replays :
  Run turnover ⟨[(⟨1⟩, [195])], 2⟩ ∧ (⟨[(⟨1⟩, [195])], 2⟩ : Memory).liveBytes = 1
    ∧ ⟨0⟩ ∉ (⟨[(⟨1⟩, [195])], 2⟩ : Memory).liveIds
  := by
  have hrun₁ := Run.perform .fresh (.emit (.granted 7) [144, 195]) rfl
  have hrun₄ := ((hrun₁.perform (.emit (.unavailable "full") [195]) rfl).perform
    (.release ⟨5⟩) rfl).perform (.emit (.granted 9) [195]) rfl
  have hrun : Run turnover ⟨[(⟨1⟩, [195])], 2⟩ :=
    (hrun₄.perform (.release ⟨0⟩) rfl).perform (.release ⟨0⟩) rfl
  obtain ⟨-, -, -, -, -, -, hbytes, -, hended⟩ := hrun.replays
  use hrun, hbytes
  apply hended (turnover.take 4) (.release ⟨0⟩, .released true) _ _ ⟨0⟩ rfl hrun₄
  · apply List.mem_toFinset.mpr
    decide
  · rfl

end RenderKernel.Code.Memory
