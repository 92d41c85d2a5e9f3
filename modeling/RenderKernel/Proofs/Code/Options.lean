import Mathlib.Data.List.Destutter
import Mathlib.Data.List.Sort
import RenderKernel.Code.Options
import RenderKernel.Processor.Verification

/-!
# Features that options require

Options require what either of their lists names, each feature once and in ascending order: the
lists are sorted, so that erasing repeated neighbours erases all repetitions.  A processor passes
their verification exactly if it offers all of that.
-/

namespace RenderKernel

/-! ### Repetitions -/

section

variable {α : Type} [DecidableEq α]

/-- Erasing repetitions from a list, of which the last element that was kept and those before
it are at hand, goes on with the next element that differs from the last one. -/
theorem eraseRepsLoop_eq (last : α) (rest kept : List α) :
  List.eraseRepsBy.loop (· == ·) last rest kept = kept.reverse ++ rest.destutter' (· ≠ ·) last
  := by
  induction rest generalizing last kept with
  | nil => rw [List.eraseRepsBy.loop, List.destutter'_nil, List.reverse_cons]
  | cons next rest ih =>
      rw [List.eraseRepsBy.loop]
      split
      · rename_i hrepeats
        rw [ih, List.destutter'_cons_neg _ (not_not.mpr (eq_of_beq hrepeats))]
      · rename_i hdiffers
        rw [ih, List.destutter'_cons_pos _ (ne_of_beq_false hdiffers), List.reverse_cons,
          List.append_assoc]
        rfl

/-- Erasing repetitions leaves a list without equal neighbours. -/
theorem eraseReps_eq_destutter (l : List α) :
  l.eraseReps = l.destutter (· ≠ ·)
  := by
  cases l with
  | nil => rfl
  | cons first rest => apply eraseRepsLoop_eq first rest []

/-- No element is lost between the last one that was kept and the rest. -/
theorem mem_destutter'_ne {a : α} (last : α) (rest : List α) :
  a ∈ rest.destutter' (· ≠ ·) last ↔ a = last ∨ a ∈ rest
  := by
  induction rest generalizing last with
  | nil => rw [List.destutter'_nil, List.mem_singleton, List.mem_nil_iff, or_false]
  | cons next rest ih =>
      by_cases hnext : last = next
      · rw [List.destutter'_cons_neg _ (not_not.mpr hnext), ih, List.mem_cons, hnext, ← or_assoc,
          or_self]
      · rw [List.destutter'_cons_pos _ hnext, List.mem_cons, ih, List.mem_cons]

/-- Dropping repetitions keeps the members of a list. -/
theorem mem_eraseReps {a : α} (l : List α) :
  a ∈ l.eraseReps ↔ a ∈ l
  := by
  rw [eraseReps_eq_destutter]
  cases l with
  | nil => rfl
  | cons first rest =>
      rw [List.destutter_cons', mem_destutter'_ne, List.mem_cons]

/-- In a sorted list the repetitions of an element are neighbours, so that none of them is left. -/
theorem pairwise_lt_eraseReps [PartialOrder α] {l : List α} (h : l.Pairwise (· ≤ ·)) :
  l.eraseReps.Pairwise (· < ·)
  := by
  rw [eraseReps_eq_destutter]
  have hle : (l.destutter (· ≠ ·)).Pairwise (· ≤ ·) := h.sublist (l.destutter_sublist _)
  apply List.IsChain.pairwise
  apply List.isChain_iff_getElem.mpr
  intro i hi
  apply lt_of_le_of_ne
  · apply hle.isChain.getElem i hi
  · apply (l.isChain_destutter (· ≠ ·)).getElem i hi

end

/-! ### Requirements -/

namespace Processor

/-- Features are ordered by their ranks. -/
instance : LinearOrder Feature where
  le_refl f := Nat.le_refl f.rank
  le_trans _ _ _ := Nat.le_trans
  lt_iff_le_not_ge _ _ := Nat.lt_iff_le_and_not_ge
  le_antisymm _ _ hle hge := Feature.rank_injective (Nat.le_antisymm hle hge)
  le_total f g := Nat.le_total f.rank g.rank
  toDecidableLE := inferInstance
  toDecidableLT := inferInstance
  toDecidableEq := inferInstance

end Processor

namespace Code.Options

open Processor

/-- A feature is required if the options ask for it in either way. -/
theorem mem_required {o : Options} {f : Feature} :
  f ∈ o.required ↔ f ∈ o.requiredFeatures ∨ f ∈ o.extraFeatures
  := by
  rw [required, mem_eraseReps, List.mem_mergeSort, List.mem_append]

/-- The required features are in strictly ascending order. -/
theorem pairwise_required (o : Options) :
  o.required.Pairwise (· < ·)
  := by
  apply pairwise_lt_eraseReps
  apply List.pairwise_mergeSort' (· ≤ ·)

/-- What is required depends only on which features are named, not on where, in which order or
how often. -/
theorem required_congr {o o' : Options}
    (h : ∀ f, f ∈ o.requiredFeatures ∨ f ∈ o.extraFeatures
      ↔ f ∈ o'.requiredFeatures ∨ f ∈ o'.extraFeatures) :
  o.required = o'.required
  := by
  apply o.pairwise_required.eq_of_mem_iff o'.pairwise_required
  intro f
  rw [mem_required, mem_required, h]

end Code.Options

namespace Processor

/-- A processor is verified if it offers everything, and otherwise refused for all that it
does not offer. -/
theorem verify_value (offers : Detector) (required : List Feature) :
  (verify offers required).value
    = if ∀ f ∈ required, offers f = true then .ok () else .error ⟨required.filter (!offers ·)⟩
  := by
  have hmissing : (required.filter (!offers ·)).isEmpty = true ↔ ∀ f ∈ required, offers f = true
      := by
    simp
  simp only [verify, hmissing]

end Processor

end RenderKernel
