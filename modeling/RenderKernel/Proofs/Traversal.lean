import Mathlib.Data.List.Forall2

/-!
# Traversals that may fail

A traversal computes something of each element of a list, from the first one on, and stops at the
first fault.  It succeeds with the results of all elements (`mapM_eq_ok_iff`), or it has the fault of
the first element that has one (`mapM_eq_error_iff`).
-/

namespace RenderKernel

variable {α β ε : Type} {f : α → Except ε β} {xs : List α} {ys : List β}

/-! ### Results in another form -/

section

variable {result : Except ε α} {make : α → β}

theorem map_eq_ok_iff {a : α} {b : β} (hmake : ∀ x, make x = b ↔ x = a) :
  result.map make = .ok b ↔ result = .ok a
  := by
  cases result with
  | ok x => simp only [Except.map, Except.ok.injEq, hmake]
  | error fault => exact iff_of_false nofun nofun

theorem map_eq_error_iff {fault : ε} :
  result.map make = .error fault ↔ result = .error fault
  := by
  cases result with
  | ok x => exact iff_of_false nofun nofun
  | error fault' => simp only [Except.map, Except.error.injEq]

end

/-! ### Traversals -/

/-- A traversal that succeeds has the results for all elements. -/
theorem forall₂_of_mapM (h : xs.mapM f = .ok ys) :
  List.Forall₂ (fun x y => f x = .ok y) xs ys
  := by
  induction xs generalizing ys with
  | nil =>
      cases h
      exact .nil
  | cons x xs ih =>
      rw [List.mapM_cons] at h
      cases hx : f x with
      | error fault =>
          rw [hx] at h
          cases h
      | ok y =>
          cases hxs : xs.mapM f with
          | error fault =>
              rw [hx, hxs] at h
              cases h
          | ok ys =>
              rw [hx, hxs] at h
              cases h
              exact .cons hx (ih hxs)

theorem mapM_eq_ok_iff :
  xs.mapM f = .ok ys ↔ List.Forall₂ (fun x y => f x = .ok y) xs ys
  := by
  constructor
  · apply forall₂_of_mapM
  · intro h
    induction h with
    | nil => rfl
    | cons hx _ ih =>
        rw [List.mapM_cons, hx, ih]
        rfl

theorem mapM_cons_of_error {x : α} {fault : ε} (h : f x = .error fault) :
  (x :: xs).mapM f = .error fault
  := by
  rw [List.mapM_cons, h]
  rfl

/-- Behind an element without a fault, a traversal has the faults of the rest. -/
theorem mapM_cons_eq_error_iff {x : α} {y : β} {fault : ε} (h : f x = .ok y) :
  (x :: xs).mapM f = .error fault ↔ xs.mapM f = .error fault
  := by
  rw [List.mapM_cons, h]
  cases xs.mapM f with
  | ok ys => exact iff_of_false nofun nofun
  | error fault' => exact Iff.rfl

/-- A traversal fails with the fault of an element exactly if there is none before it. -/
theorem mapM_eq_error_iff {fault : ε} :
  xs.mapM f = .error fault
    ↔ ∃ i, ∃ hi : i < xs.length, (∀ j, ∀ hj : j < i, ∃ y, f xs[j] = .ok y) ∧ f xs[i] = .error fault
  := by
  induction xs with
  | nil => exact iff_of_false nofun nofun
  | cons x xs ih =>
      cases hx : f x with
      | error first =>
          rw [mapM_cons_of_error hx]
          constructor
          · intro h
            use 0, Nat.zero_lt_succ _
            constructor
            · intro j hj
              apply absurd hj (Nat.not_lt_zero j)
            · cases h
              apply hx
          · rintro ⟨i, hi, hbefore, hfault⟩
            cases i with
            | zero =>
                cases hx.symm.trans hfault
                rfl
            | succ i =>
                obtain ⟨y, hy⟩ := hbefore 0 (Nat.zero_lt_succ i)
                cases hx.symm.trans hy
      | ok y =>
          rw [mapM_cons_eq_error_iff hx, ih]
          constructor
          · rintro ⟨i, hi, hbefore, hfault⟩
            use i + 1, Nat.succ_lt_succ hi
            constructor
            · intro j hj
              cases j with
              | zero => use y, hx
              | succ j => apply hbefore j (Nat.lt_of_succ_lt_succ hj)
            · apply hfault
          · rintro ⟨i, hi, hbefore, hfault⟩
            cases i with
            | zero => cases hx.symm.trans hfault
            | succ i =>
                use i, Nat.lt_of_succ_lt_succ hi
                constructor
                · intro j hj
                  apply hbefore (j + 1) (Nat.succ_lt_succ hj)
                · apply hfault

theorem exists_getElem?_of_mapM (h : xs.mapM f = .ok ys) {i : Nat} (hi : i < xs.length) :
  ∃ y, f xs[i] = .ok y ∧ ys[i]? = some y
  := by
  have hall := forall₂_of_mapM h
  have hi' : i < ys.length := hall.length_eq ▸ hi
  exact ⟨ys[i], hall.get hi hi', List.getElem?_eq_getElem hi'⟩

/-- Every result of a traversal is that of an element. -/
theorem exists_of_mem_mapM (h : xs.mapM f = .ok ys) {y : β} (hy : y ∈ ys) :
  ∃ x ∈ xs, f x = .ok y
  := by
  have hall := forall₂_of_mapM h
  obtain ⟨i, hi, rfl⟩ := List.getElem_of_mem hy
  have hi' : i < xs.length := hall.length_eq ▸ hi
  exact ⟨xs[i], List.getElem_mem hi', hall.get hi' hi⟩

/-- A traversal succeeds, or it stops with the fault of an element. -/
theorem mapM_cases (f : α → Except ε β) (xs : List α) :
  (∃ ys, xs.mapM f = .ok ys) ∨ ∃ x ∈ xs, ∃ fault, f x = .error fault ∧ xs.mapM f = .error fault
  := by
  cases h : xs.mapM f with
  | ok ys => exact .inl ⟨ys, rfl⟩
  | error fault =>
      obtain ⟨i, hi, -, hfault⟩ := mapM_eq_error_iff.mp h
      exact .inr ⟨xs[i], List.getElem_mem hi, fault, hfault, rfl⟩

end RenderKernel
