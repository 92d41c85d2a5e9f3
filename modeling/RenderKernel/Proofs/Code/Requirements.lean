import RenderKernel.Proofs.Code.Turn

/-!
# Verification of requirements

To verify a processor is to look for the required features one after another; each look leaves a
record (`Processor.verify_eq_probes`).  A runtime that is brought up for the first time so looks once
for each feature that its options name, in ascending order, and is refused for exactly those that it
does not find.  Options that name the same features have the same outcome and the same records
(`Code.Lifecycle.bringUp_verifies`).
-/

namespace RenderKernel

namespace Processor

/-! ### Probes -/

/-- Looks for one feature, and records what was found. -/
def probe (offers : Detector) (f : Feature) : Logged Bool := do
  Logged.logAll [probeRecord offers f]
  return offers f

/-- Looks for features one after another, and gives those that were not found. -/
def probeAll (offers : Detector) : List Feature → Logged (List Feature)
  | [] => return []
  | f :: fs => do
    let present ← probe offers f
    let missing ← probeAll offers fs
    return if present then missing else f :: missing

variable (offers : Detector)

/-- Probing finds the features that are not offered, in their order. -/
theorem value_probeAll (fs : List Feature) :
  (probeAll offers fs).value = fs.filter (!offers ·)
  := by
  induction fs with
  | nil => rfl
  | cons f fs ih =>
      have hprobe : (probe offers f).value = offers f := rfl
      rw [probeAll, Logged.value_bind, Logged.value_bind, Logged.value_pure, ih, hprobe,
        List.filter_cons]
      cases offers f with
      | true => rfl
      | false => rfl

/-- Every look leaves a record, in the order of the looks. -/
theorem records_probeAll (fs : List Feature) :
  (probeAll offers fs).records = fs.map (probeRecord offers)
  := by
  induction fs with
  | nil => rfl
  | cons f fs ih =>
      rw [probeAll, Logged.records_bind, Logged.records_bind, Logged.records_pure, ih,
        List.append_nil]
      rfl

/-- To verify a processor is to look for the features one after another. -/
theorem verify_eq_probes (required : List Feature) :
  verify offers required = (do
    let missing ← probeAll offers required
    return if missing.isEmpty then .ok () else .error ⟨missing⟩)
  := by
  apply congrArg₂ Logged.mk
  · rw [value_probeAll]
    rfl
  · rw [records_probeAll, Logged.records_pure, List.append_nil]

end Processor

namespace Code.Lifecycle

open Processor

variable {E : Type} {l : Lifecycle E}

/-- The records of bringing the runtime up for the first time: of the features that were looked
for, and of the runtime becoming ready if they were all found. -/
theorem records_bringUp (h : l.state = .uninitialized) (o : Options) :
  (l.bringUp o).records = o.required.map (probeRecord l.offers)
    ++ if ∀ f ∈ o.required, l.offers f = true then [readyRecord o.required.length] else []
  := by
  simp only [bringUp, h, Logged.records_bind, verify_value]
  by_cases hoffers : ∀ f ∈ o.required, l.offers f = true
  · rw [if_pos hoffers, if_pos hoffers]
    rfl
  · rw [if_neg hoffers, if_neg hoffers]
    rfl

/-- What the answer to bringing the runtime up for the first time tells: success, that every named
feature was found; a refusal, which of them were not. -/
theorem bringUp_answers (h : l.state = .uninitialized) (o : Options) :
  ((l.bringUp o).value.1 = .ok true ↔ ∀ f ∈ o.required, l.offers f = true)
    ∧ ((∃ e, (l.bringUp o).value.1 = .error e) ↔ ∃ f ∈ o.required, l.offers f = false)
    ∧ ∀ e, (l.bringUp o).value.1 = .error e → e.missing = o.required.filter (!l.offers ·)
  := by
  rw [bringUp_of_uninitialized h]
  by_cases hoffers : ∀ f ∈ o.required, l.offers f = true
  · rw [if_pos hoffers]
    constructor
    · apply iff_of_true rfl hoffers
    · constructor
      · apply iff_of_false
        · rintro ⟨e, he⟩
          cases he
        · rintro ⟨f, hf, hlacks⟩
          apply ne_true_of_eq_false hlacks (hoffers f hf)
      · intro e he
        cases he
  · rw [if_neg hoffers]
    constructor
    · apply iff_of_false _ hoffers
      intro hok
      cases hok
    · constructor
      · apply iff_of_true ⟨_, rfl⟩
        simpa using hoffers
      · intro e he
        cases he
        rfl

/-- Options with the same requirements have the same outcome and the same records. -/
theorem bringUp_congr {o o' : Options} (h : o.required = o'.required) (l : Lifecycle E) :
  (l.bringUp o).value.1 = (l.bringUp o').value.1 ∧ (l.bringUp o).records = (l.bringUp o').records
    ∧ (l.bringUp o).value.2.state = (l.bringUp o').value.2.state
  := by
  cases hstate : l.state with
  | uninitialized =>
      rw [records_bringUp hstate, records_bringUp hstate, bringUp_of_uninitialized hstate,
        bringUp_of_uninitialized hstate, h]
      by_cases hoffers : ∀ f ∈ o'.required, l.offers f = true
      · rw [if_pos hoffers, if_pos hoffers]
        exact ⟨rfl, rfl, rfl⟩
      · rw [if_neg hoffers, if_neg hoffers]
        exact ⟨rfl, rfl, rfl⟩
  | ready | shutDown => simp only [bringUp, hstate, and_self]

/-- The required features are those that the options name, strictly ascending.  A runtime that is
brought up for the first time looks for each of them once, in this order; it succeeds exactly if all
are found, and otherwise the refusal names exactly those that are not, strictly ascending.  So
options that name the same features have the same outcome, the same refusal and the same records.
The verification of any list looks for its elements one after another, and names those that are not
found in their order, repetitions included. -/
theorem bringUp_verifies :
  (∀ o : Options, o.required.Pairwise (· < ·)
      ∧ ∀ f, f ∈ o.required ↔ f ∈ o.requiredFeatures ∨ f ∈ o.extraFeatures)
    ∧ (∀ {E : Type} (l : Lifecycle E) (o : Options), l.state = .uninitialized →
      ((l.bringUp o).records = o.required.map (probeRecord l.offers)
          ++ if ∀ f ∈ o.required, l.offers f = true then [readyRecord o.required.length] else [])
        ∧ ((l.bringUp o).value.1 = .ok true ↔ ∀ f ∈ o.required, l.offers f = true)
        ∧ ((∃ e, (l.bringUp o).value.1 = .error e) ↔ ∃ f ∈ o.required, l.offers f = false)
        ∧ ∀ e, (l.bringUp o).value.1 = .error e → e.missing.Pairwise (· < ·)
          ∧ ∀ f, f ∈ e.missing ↔ f ∈ o.required ∧ l.offers f = false)
    ∧ (∀ {E : Type} (l : Lifecycle E) (o o' : Options),
      (∀ f, f ∈ o.requiredFeatures ∨ f ∈ o.extraFeatures
        ↔ f ∈ o'.requiredFeatures ∨ f ∈ o'.extraFeatures) →
      (l.bringUp o).value.1 = (l.bringUp o').value.1
        ∧ (l.bringUp o).records = (l.bringUp o').records
        ∧ (l.bringUp o).value.2.state = (l.bringUp o').value.2.state)
    ∧ ∀ (offers : Detector) (features : List Feature),
      (verify offers features = do
          let missing ← probeAll offers features
          return if missing.isEmpty then .ok () else .error ⟨missing⟩)
        ∧ (verify offers features).records = features.map (probeRecord offers)
        ∧ (verify offers features).value
          = if ∀ f ∈ features, offers f = true then .ok ()
            else .error ⟨features.filter (!offers ·)⟩
  := by
  constructor
  · intro o
    use o.pairwise_required
    intro f
    apply Options.mem_required
  constructor
  · intro E l o h
    obtain ⟨hok, hrefused, hmissing⟩ := bringUp_answers h o
    use records_bringUp h o, hok, hrefused
    intro e he
    rw [hmissing e he]
    use o.pairwise_required.filter _
    intro f
    rw [List.mem_filter, Bool.not_eq_true']
  constructor
  · intro E l o o' h
    apply bringUp_congr (Options.required_congr h)
  · intro offers features
    use verify_eq_probes offers features, rfl, verify_value offers features

/-- Options that name features more than once, in either list. -/
def overlapping : Options :=
  { requiredFeatures := [.fma, .sse2, .fma], extraFeatures := [.avx2, .sse2] }

/-- Options that name the same features, each once. -/
def regrouped : Options := { requiredFeatures := [.avx2], extraFeatures := [.fma, .sse2] }

/-- A processor that offers only what is taken for granted is refused for the same features under
both options. -/
theorem bringUp_verifies_overlapping :
  ofProgram.state = .uninitialized
    ∧ (∀ f, f ∈ overlapping.requiredFeatures ∨ f ∈ overlapping.extraFeatures
      ↔ f ∈ regrouped.requiredFeatures ∨ f ∈ regrouped.extraFeatures)
    ∧ overlapping.required = [.sse2, .avx2, .fma]
    ∧ (∃ e, (ofProgram.bringUp overlapping).value.1 = .error e)
    ∧ (ofProgram.bringUp overlapping).value.1 = (ofProgram.bringUp regrouped).value.1
    ∧ (ofProgram.bringUp overlapping).records = (ofProgram.bringUp regrouped).records
  := by
  obtain ⟨hrequired, hfirst, hsame, -⟩ := bringUp_verifies
  have hunion : ∀ f, f ∈ overlapping.requiredFeatures ∨ f ∈ overlapping.extraFeatures
      ↔ f ∈ regrouped.requiredFeatures ∨ f ∈ regrouped.extraFeatures := by
    intro f
    cases f <;> decide
  have hlist : overlapping.required = [.sse2, .avx2, .fma] := by
    apply (hrequired overlapping).1.eq_of_mem_iff (by decide)
    intro f
    rw [(hrequired overlapping).2]
    cases f <;> decide
  obtain ⟨houtcome, hrecords, -⟩ := hsame ofProgram overlapping regrouped hunion
  obtain ⟨-, -, hrefused, -⟩ := hfirst ofProgram overlapping rfl
  use rfl, hunion, hlist, hrefused.mpr ⟨.fma, by rw [hlist]; decide, rfl⟩, houtcome, hrecords

end Code.Lifecycle

end RenderKernel
