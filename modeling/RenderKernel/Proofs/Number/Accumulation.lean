import Mathlib.Algebra.BigOperators.Fin
import Mathlib.Algebra.Order.BigOperators.Group.Finset
import Mathlib.Order.Interval.Finset.Fin
import RenderKernel.Proofs.Number.Integer

/-!
# Accumulations between bounds

Products of bounded integers are added up from the first one on, and every product and every sum
that is formed on the way must lie between the bounds.  What such an accumulation comes to depends
on the exact products alone: it is their sum if all of these numbers lie between the bounds, and
otherwise the fault of the first one that does not (`Checked.total_eq_iff`).

Sums of products that are not negative only grow, so that it is enough if the last one lies between
the bounds (`IntegerKind.forall_fitsAt_iff`).
-/

namespace RenderKernel

/-! ### What lies between the bounds -/

namespace IntegerKind

variable {n : Nat}

/-- The product with a number lies between the bounds, and so does the sum of the products up to
it. -/
def FitsAt (k : IntegerKind) (p : Fin n → Int) (i : Fin n) : Prop :=
  k.holds (p i) ∧ k.holds (∑ j ≤ i, p j)

/-- The product with a number does not lie between the bounds, or it does and the sum of the products
up to it does not.  The fault is that of the operation that leaves the bounds. -/
inductive FailsAt (k : IntegerKind) (p : Fin n → Int) (i : Fin n) : ArithmeticFault → Prop where
  | multiply : ¬ k.holds (p i) → FailsAt k p i (.overflow .multiply)
  | add : k.holds (p i) → ¬ k.holds (∑ j ≤ i, p j) → FailsAt k p i (.overflow .add)

variable {k : IntegerKind}

instance (p : Fin n → Int) (i : Fin n) : Decidable (k.FitsAt p i) :=
  inferInstanceAs (Decidable (_ ∧ _))

/-- A product that fails, or whose sum fails, does not fit. -/
theorem FailsAt.not_fitsAt {p : Fin n → Int} {i : Fin n} {fault : ArithmeticFault}
    (h : k.FailsAt p i fault) :
  ¬ k.FitsAt p i
  := by
  rintro ⟨hproduct, hsum⟩
  cases h with
  | multiply h => apply h hproduct
  | add _ h => apply h hsum

/-- There is only one way to fail at a place. -/
theorem FailsAt.unique {p : Fin n → Int} {i : Fin n} {fault fault' : ArithmeticFault}
    (h : k.FailsAt p i fault) (h' : k.FailsAt p i fault') :
  fault = fault'
  := by
  cases h with
  | multiply hproduct =>
      cases h' with
      | multiply _ => rfl
      | add hproduct' _ => apply absurd hproduct' hproduct
  | add hproduct _ =>
      cases h' with
      | multiply hproduct' => apply absurd hproduct hproduct'
      | add _ _ => rfl

/-- Whether a product fits does not depend on those that come later. -/
theorem fitsAt_castSucc {p : Fin (n + 1) → Int} {i : Fin n} :
  k.FitsAt p i.castSucc ↔ k.FitsAt (fun j => p j.castSucc) i
  := by
  rw [FitsAt, Fin.sum_Iic_castSucc]
  rfl

/-- How a product fails does not depend on those that come later. -/
theorem FailsAt.castSucc {p : Fin (n + 1) → Int} {i : Fin n} {fault : ArithmeticFault}
    (h : k.FailsAt (fun j => p j.castSucc) i fault) :
  k.FailsAt p i.castSucc fault
  := by
  cases h with
  | multiply hproduct => apply multiply hproduct
  | add hproduct hsum =>
      rw [← Fin.sum_Iic_castSucc] at hsum
      apply add hproduct hsum

theorem sum_Iic_last (p : Fin (n + 1) → Int) :
  ∑ j ≤ Fin.last n, p j = ∑ j, p j
  := by
  rw [← Fin.top_eq_last, Finset.Iic_top]

/-- If no product is negative, all sums lie between the bounds as soon as the last one does. -/
theorem forall_fitsAt_iff {p : Fin n → Int} (h : ∀ i, 0 ≤ p i) :
  (∀ i, k.FitsAt p i) ↔ k.holds (∑ i, p i)
  := by
  constructor
  · intro hfits
    cases n with
    | zero => apply k.holds_zero
    | succ n =>
        rw [← sum_Iic_last]
        apply (hfits (Fin.last n)).2
  · intro htotal i
    have hgreatest := (holds_iff.mp htotal).2
    have hproduct : p i ≤ ∑ j, p j := Finset.single_le_sum (fun j _ => h j) (Finset.mem_univ i)
    have hsum : ∑ j ≤ i, p j ≤ ∑ j, p j :=
      Finset.sum_le_sum_of_subset_of_nonneg (Finset.subset_univ _) fun j _ _ => h j
    have hnonneg : 0 ≤ ∑ j ≤ i, p j := Finset.sum_nonneg fun j _ => h j
    constructor
    · apply holds_iff.mpr ⟨k.least_le_zero.trans (h i), hproduct.trans hgreatest⟩
    · apply holds_iff.mpr ⟨k.least_le_zero.trans hnonneg, hsum.trans hgreatest⟩

end IntegerKind

/-! ### The accumulation -/

namespace Checked

variable {k : IntegerKind} {n : Nat}

/-- The accumulation of some products: each of them is fitted between the bounds, and then its sum
with what has been added up before. -/
def total (p : Fin n → Int) : Checked k :=
  (List.finRange n).foldl (fun sum i => sum + Bounded.fit .multiply (p i)) 0

/-- The last product is added to the accumulation of those before it. -/
theorem total_succ (p : Fin (n + 1) → Int) :
  (total p : Checked k) = total (fun i => p i.castSucc) + Bounded.fit .multiply (p (Fin.last n))
  := by
  rw [total, List.finRange_succ_last, List.foldl_append, List.foldl_map]
  rfl

theorem ok_add_ok (x y : Bounded k) :
  (.ok x + .ok y : Checked k) = Bounded.fit .add (x.val + y.val)
  := rfl

theorem ok_mul_ok (x y : Bounded k) :
  (.ok x * .ok y : Checked k) = Bounded.fit .multiply (x.val * y.val)
  := rfl

/-- Zero can be left out: what it is added to lies between the bounds already. -/
theorem zero_add (a : Checked k) :
  0 + a = a
  := by
  cases a with
  | ok x =>
      calc
        0 + .ok x = Bounded.fit .add (0 + x.val) := rfl
        _ = Bounded.fit .add x.val := by rw [Int.zero_add]
        _ = .ok x := Bounded.fit_of_bounds .add x.least_le x.le_greatest
  | error fault => rfl

/-- What the accumulation of some products comes to: their sum, or the fault of the first product
or sum that does not lie between the bounds. -/
inductive Accumulates (p : Fin n → Int) : Checked k → Prop where
  | sum (x : Bounded k) : (∀ i, k.FitsAt p i) → x.val = ∑ i, p i → Accumulates p (.ok x)
  | fault (i : Fin n) (fault : ArithmeticFault) : (∀ j < i, k.FitsAt p j) →
      k.FailsAt p i fault → Accumulates p (.error fault)

namespace Accumulates

/-- An accumulation comes to one result.  Of two places that fail, the later one would come after a place
that does not fit. -/
theorem unique {p : Fin n → Int} {a b : Checked k} (ha : Accumulates p a) (hb : Accumulates p b) :
  a = b
  := by
  cases ha with
  | sum _ hfits hsum =>
      cases hb with
      | sum _ _ hsum' => rw [Bounded.eq_of_val_eq (hsum.trans hsum'.symm)]
      | fault i _ _ hfails => apply absurd (hfits i) hfails.not_fitsAt
  | fault i _ hbefore hfails =>
      cases hb with
      | sum _ hfits _ => apply absurd (hfits i) hfails.not_fitsAt
      | fault i' _ hbefore' hfails' =>
          obtain hlt | rfl | hlt := lt_trichotomy i i'
          · apply absurd (hbefore' i hlt) hfails.not_fitsAt
          · rw [hfails.unique hfails']
          · apply absurd (hbefore i' hlt) hfails'.not_fitsAt

/-- A fault ends an accumulation, whatever product comes next. -/
theorem error_add {p : Fin (n + 1) → Int} {fault : ArithmeticFault}
    (h : Accumulates (fun i => p i.castSucc) (.error fault : Checked k)) :
  Accumulates p (.error fault : Checked k)
  := by
  cases h with
  | fault i _ hbefore hfails =>
      apply Accumulates.fault i.castSucc _ _ hfails.castSucc
      intro j hj
      cases j using Fin.lastCases with
      | last => apply absurd hj (Fin.le_last _).not_gt
      | cast j =>
          apply IntegerKind.fitsAt_castSucc.mpr
          apply hbefore j (Fin.castSucc_lt_castSucc_iff.mp hj)

/-- A sum goes on with the next product, unless this product or the next sum does not lie between
the bounds. -/
theorem ok_add {p : Fin (n + 1) → Int} {x : Bounded k}
    (h : Accumulates (fun i => p i.castSucc) (.ok x : Checked k)) :
  Accumulates p (.ok x + Bounded.fit .multiply (p (Fin.last n)) : Checked k)
  := by
  cases h with
  | sum _ hfits hsum =>
      have hbefore : ∀ j < Fin.last n, k.FitsAt p j := by
        intro j hj
        cases j using Fin.lastCases with
        | last => apply absurd hj (lt_irrefl _)
        | cast j => apply IntegerKind.fitsAt_castSucc.mpr (hfits j)
      have htotal : x.val + p (Fin.last n) = ∑ i, p i := by
        rw [Fin.sum_univ_castSucc, hsum]
      have hlast : ∑ j ≤ Fin.last n, p j = x.val + p (Fin.last n) := by
        rw [IntegerKind.sum_Iic_last, htotal]
      by_cases hproduct : k.holds (p (Fin.last n))
      · obtain ⟨y, hy, hval⟩ := Bounded.fit_of_holds .multiply hproduct
        rw [hy, ok_add_ok, hval]
        by_cases hnext : k.holds (x.val + p (Fin.last n))
        · obtain ⟨z, hz, hval⟩ := Bounded.fit_of_holds .add hnext
          rw [hz]
          apply sum z _ (hval.trans htotal)
          rw [← hlast] at hnext
          intro j
          cases j using Fin.lastCases with
          | last => use hproduct, hnext
          | cast j => apply hbefore _ j.castSucc_lt_last
        · rw [Bounded.fit_of_not_holds .add hnext]
          rw [← hlast] at hnext
          apply fault (Fin.last n) _ hbefore (.add hproduct hnext)
      · rw [Bounded.fit_of_not_holds .multiply hproduct]
        apply fault (Fin.last n) _ hbefore (.multiply hproduct)

end Accumulates

/-- The accumulation of some products comes to a result, by induction on their number: the last product
comes on top of what the ones before it come to. -/
theorem accumulates_total (p : Fin n → Int) :
  Accumulates p (total p : Checked k)
  := by
  induction n with
  | zero =>
      apply Accumulates.sum
      · intro i
        apply i.elim0
      · rfl
  | succ n ih =>
      have h := ih fun i => p i.castSucc
      rw [total_succ]
      generalize (total fun i => p i.castSucc : Checked k) = a at h
      cases a with
      | ok x => apply h.ok_add
      | error fault => apply h.error_add

/-- The accumulation is the only result that it can come to. -/
theorem total_eq_iff {p : Fin n → Int} {a : Checked k} :
  total p = a ↔ Accumulates p a
  := by
  constructor
  · rintro rfl
    apply accumulates_total
  · intro h
    apply (accumulates_total p).unique h

/-- An accumulation that does not fail gives the sum of the products. -/
theorem val_of_total_eq_ok {p : Fin n → Int} {x : Bounded k} (h : total p = .ok x) :
  x.val = ∑ i, p i
  := by
  cases total_eq_iff.mp h with
  | sum _ _ hsum => apply hsum

/-- An accumulation succeeds exactly if every product and every sum fits. -/
theorem exists_total_eq_ok_iff {p : Fin n → Int} :
  (∃ x, (total p : Checked k) = .ok x) ↔ ∀ i, k.FitsAt p i
  := by
  constructor
  · rintro ⟨x, hx⟩
    cases total_eq_iff.mp hx with
    | sum _ hfits _ => apply hfits
  · intro hfits
    generalize h : (total p : Checked k) = a
    cases total_eq_iff.mp h with
    | sum x _ _ => use x
    | fault i _ _ hfails => apply absurd (hfits i) hfails.not_fitsAt

/-- An accumulation fails with the fault of the first product or sum that does not fit. -/
theorem total_eq_error_iff {p : Fin n → Int} {fault : ArithmeticFault} :
  (total p : Checked k) = .error fault ↔ ∃ i, (∀ j < i, k.FitsAt p j) ∧ k.FailsAt p i fault
  := by
  rw [total_eq_iff]
  constructor
  · intro h
    cases h with
    | fault i _ hbefore hfails => use i, hbefore, hfails
  · rintro ⟨i, hbefore, hfails⟩
    apply Accumulates.fault i fault hbefore hfails

end Checked

end RenderKernel
