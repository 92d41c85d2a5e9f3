import Mathlib.Data.Finset.Card
import RenderKernel.Code.Memory

/-!
# Live regions of an executable memory

A memory is sound if its live regions have different numbers, all of them below the number of
the next region.  Every operation keeps a memory sound, and what it does to the live regions is
said by their numbers alone: a successful emission adds one number that was not there, a failed
one changes nothing, and releases only take numbers away.
-/

namespace RenderKernel.Code.Memory

/-- The numbers of the live regions. -/
def liveIds (m : Memory) : Finset RegionId := (m.live.map Prod.fst).toFinset

/-- The live regions have different numbers, and none of them is still to come. -/
structure Sound (m : Memory) : Prop where
  nodup : (m.live.map Prod.fst).Nodup
  lt_next : ∀ id ∈ m.live.map Prod.fst, id.index < m.next

/-- A memory without regions is sound. -/
theorem sound_empty :
  ({} : Memory).Sound
  := by
  constructor
  · apply List.nodup_nil
  · intro id hid
    cases hid

/-- A memory without regions has no live identifiers. -/
theorem liveIds_empty :
  ({} : Memory).liveIds = ∅
  := rfl

/-- As identifiers are not repeated, there are as many live regions as live identifiers. -/
theorem Sound.liveRegions_eq {m : Memory} (h : m.Sound) :
  m.liveRegions = m.liveIds.card
  := by
  rw [liveIds, List.toFinset_card_of_nodup h.nodup, List.length_map]
  rfl

/-! ### Emission -/

/-- An emission fails and changes nothing, or it adds the next region. -/
theorem emit_cases (m : Memory) (p : Placement) (code : Bytes) :
  (∃ fault, (m.emit p code).value = (.error fault, m))
    ∨ ∃ page, p = .granted page ∧ code ≠ [] ∧ (m.emit p code).value
        = (.ok ⟨⟨m.next⟩, page * pageSize.toNat, code⟩, ⟨(⟨m.next⟩, code) :: m.live, m.next + 1⟩)
  := by
  unfold Memory.emit
  split
  · apply Or.inl
    use .emptyCode
  · rename_i hcode
    cases p with
    | granted page =>
        apply Or.inr
        use page, rfl
        constructor
        · intro hempty
          apply hcode
          rw [hempty]
          rfl
        · rfl
    | unavailable reason =>
        apply Or.inl
        use .allocation reason
    | unprotectable reason =>
        apply Or.inl
        use .protection reason

/-- The next identifier is not in use. -/
theorem Sound.next_notMem {m : Memory} (h : m.Sound) :
  ⟨m.next⟩ ∉ m.live.map Prod.fst
  := by
  intro hmem
  apply Nat.lt_irrefl _ (h.lt_next _ hmem)

/-- Emissions keep a memory sound, since a new region gets the next identifier. -/
theorem Sound.emit {m : Memory} (h : m.Sound) (p : Placement) (code : Bytes) :
  (m.emit p code).value.2.Sound
  := by
  obtain ⟨fault, he⟩ | ⟨page, -, -, he⟩ := emit_cases m p code
  · rw [he]
    apply h
  · rw [he]
    constructor
    · apply List.nodup_cons.mpr ⟨h.next_notMem, h.nodup⟩
    · intro id hid
      cases List.mem_cons.mp hid with
      | inl hnext =>
          rw [hnext]
          apply Nat.lt_succ_self
      | inr hlive => apply Nat.lt_succ_of_lt (h.lt_next id hlive)

/-- A successful emission adds one region. -/
theorem Sound.liveIds_emit_of_ok {m m' : Memory} {p : Placement} {code : Bytes} {r : Region}
    (h : m.Sound) (he : (m.emit p code).value = (.ok r, m')) :
  r.id ∉ m.liveIds ∧ m'.liveIds = insert r.id m.liveIds
  := by
  obtain ⟨fault, he'⟩ | ⟨page, -, -, he'⟩ := emit_cases m p code
  · rw [he'] at he
    cases he
  · rw [he'] at he
    cases he
    constructor
    · intro hmem
      apply h.next_notMem (List.mem_toFinset.mp hmem)
    · apply List.toFinset_cons

/-- An emission that fails leaves the memory as it is. -/
theorem emit_of_error {m m' : Memory} {p : Placement} {code : Bytes} {fault : Fault}
    (he : (m.emit p code).value = (.error fault, m')) :
  m' = m
  := by
  obtain ⟨fault', he'⟩ | ⟨page, -, -, he'⟩ := emit_cases m p code
  · rw [he'] at he
    cases he
    rfl
  · rw [he'] at he
    cases he

/-- An emission that succeeds adds one live region. -/
theorem liveRegions_emit_of_ok {m m' : Memory} {p : Placement} {code : Bytes} {r : Region}
    (he : (m.emit p code).value = (.ok r, m')) :
  m'.liveRegions = m.liveRegions + 1
  := by
  obtain ⟨fault, he'⟩ | ⟨page, -, -, he'⟩ := emit_cases m p code
  · rw [he'] at he
    cases he
  · rw [he'] at he
    cases he
    rfl

/-! ### Release -/

/-- What is left after a release was there before. -/
theorem live_release_sublist (m : Memory) (id : RegionId) :
  ((m.release id).2.live.map Prod.fst).Sublist (m.live.map Prod.fst)
  := List.Sublist.map _ List.filter_sublist

/-- Releases keep a memory sound. -/
theorem Sound.release {m : Memory} (h : m.Sound) (id : RegionId) :
  (m.release id).2.Sound
  := by
  constructor
  · apply (live_release_sublist m id).nodup h.nodup
  · intro id' hid
    apply h.lt_next id' ((live_release_sublist m id).mem hid)

/-- A release takes its identifier, and no other, from the live ones. -/
theorem liveIds_release (m : Memory) (id : RegionId) :
  (m.release id).2.liveIds = m.liveIds.erase id
  := by
  ext id'
  simp [release, liveIds, and_comm]

/-- A release tells whether its region was live. -/
theorem release_iff (m : Memory) (id : RegionId) :
  (m.release id).1 = true ↔ id ∈ m.liveIds
  := by
  simp [release, isLive, liveIds]

/-- A release takes the region away that it answers for, and no other. -/
theorem Sound.liveRegions_release {m : Memory} (h : m.Sound) (id : RegionId) :
  m.liveRegions = (m.release id).2.liveRegions + if (m.release id).1 then 1 else 0
  := by
  rw [h.liveRegions_eq, (h.release id).liveRegions_eq, liveIds_release]
  split
  · rename_i hlive
    rw [Finset.card_erase_add_one ((release_iff m id).mp hlive)]
  · rename_i hlive
    rw [Finset.erase_eq_of_notMem (mt (release_iff m id).mpr hlive), Nat.add_zero]

/-- A memory is sound when everything has been released. -/
theorem Sound.releaseAll (m : Memory) :
  m.releaseAll.2.Sound
  := by
  constructor
  · apply List.nodup_nil
  · intro id hid
    cases hid

/-- No identifier is live when everything has been released. -/
theorem liveIds_releaseAll (m : Memory) :
  m.releaseAll.2.liveIds = ∅
  := rfl

end RenderKernel.Code.Memory
