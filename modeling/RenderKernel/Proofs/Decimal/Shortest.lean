import RenderKernel.Proofs.Decimal.Neighbour

/-!
# The shortest decimal

The search for the shortest decimal of a finite number ends with a grid (`Binary.exists_found`): enough
digits of the format are tried, and with them a decimal is read as the number.  The exact expansion
behind the search is never needed.

The neighbour on the coarsest grid is read back (`Binary.shortest_spec`), and so is the decimal that is
left when the zeros at the end of its coefficient have been moved into the exponent, which does not
change the value.  No decimal that is read as the number has fewer digits
(`Binary.digitCount_shortest_le`), and none with as few is nearer to it (`Binary.shortest_dist_le`).
-/

namespace RenderKernel.Decimal

/-! ### Zeros at the end of a coefficient -/

/-- Moving zeros into the exponent keeps the value and does not make the coefficient greater. -/
theorem stripZeros_spec (n : Nat) (e : Int) :
  ((stripZeros n e).1 : ℚ) * 10 ^ (stripZeros n e).2 = n * 10 ^ e ∧ (stripZeros n e).1 ≤ n
  := by
  have hgo (fuel n : Nat) (e : Int) : ((stripZeros.go fuel n e).1 : ℚ) * 10 ^ (stripZeros.go fuel n e).2
      = n * 10 ^ e ∧ (stripZeros.go fuel n e).1 ≤ n := by
    induction fuel generalizing n e with
    | zero => exact ⟨rfl, le_rfl⟩
    | succ fuel ih =>
        rw [stripZeros.go]
        split
        · rename_i hzero
          obtain ⟨hvalue, hle⟩ := ih (n / 10) (e + 1)
          constructor
          · have hmul : (n : ℚ) = (n / 10 : Nat) * 10 := by
              exact_mod_cast (Nat.div_mul_cancel (Nat.dvd_of_mod_eq_zero hzero)).symm
            rw [hvalue, hmul, zpow_add_one₀ (by norm_num)]
            ring
          · apply hle.trans (Nat.div_le_self n 10)
        · exact ⟨rfl, le_rfl⟩
  apply hgo

/-- No zero is left at the end of a coefficient, as there are no more of them than digits. -/
theorem stripZeros_mod_ne_zero {n : Nat} (h : n ≠ 0) (e : Int) :
  (stripZeros n e).1 % 10 ≠ 0
  := by
  have hgo (fuel n : Nat) (e : Int) (hn : n ≠ 0) (hlt : n < 10 ^ fuel) :
      (stripZeros.go fuel n e).1 % 10 ≠ 0 := by
    induction fuel generalizing n e with
    | zero => exact absurd (Nat.lt_one_iff.mp hlt) hn
    | succ fuel ih =>
        rw [stripZeros.go]
        split
        · rename_i hzero
          apply ih
          · omega
          · apply Nat.div_lt_of_lt_mul
            rwa [Nat.mul_comm, ← Nat.pow_succ]
        · rename_i hlast
          exact hlast
  apply hgo _ _ _ h (lt_pow_digitCount n)

/-- Without the zeros at its end, a coefficient up to a power of ten has at most as many digits as the
power has zeros. -/
theorem digitCount_stripZeros_le {n digits : Nat} (e : Int) (hn : n ≠ 0) (hdigits : 0 < digits)
    (h : n ≤ 10 ^ digits) :
  digitCount (stripZeros n e).1 ≤ digits
  := by
  apply digitCount_le hdigits
  apply lt_of_le_of_ne ((stripZeros_spec n e).2.trans h)
  intro hpower
  apply stripZeros_mod_ne_zero hn e
  rw [hpower]
  exact Nat.mod_eq_zero_of_dvd (dvd_pow_self 10 hdigits.ne')

end RenderKernel.Decimal

namespace RenderKernel.Binary

open Decimal

variable {f : Format} {x : Binary f} {tie : Tie} {digits : Nat}

/-! ### The search -/

/-- The search for a shortest decimal ends with a grid: the coarsest one on which a neighbour of the
number is read back. -/
structure Found (tie : Tie) (x : Binary f) (digits n : Nat) (e : ℤ) : Prop where
  pos : 0 < digits
  le : digits ≤ enoughDigits f
  neighbour_eq : neighbour f tie x.magnitude x.ratio digits = some (n, e)
  least : ∀ less, 0 < less → less < digits → neighbour f tie x.magnitude x.ratio less = none
  shortest_eq : x.shortest tie = ⟨x.negative, (stripZeros n e).1, (stripZeros n e).2⟩

/-- The search for a shortest decimal of a finite number other than zero ends with a grid, since a
decimal of enough digits is read as the number. -/
theorem exists_found (tie : Tie) (hfinite : x.isFinite = true) (h : x.magnitude ≠ 0) :
  ∃ digits n e, Found tie x digits n e
  := by
  obtain ⟨l, hcount, hread⟩ := exists_magnitude_eq hfinite h
  have henough : 0 < enoughDigits f := Nat.succ_pos _
  obtain ⟨m, i, hlast, -⟩ := exists_neighbour tie hfinite h henough hcount hread
  cases hsearch : (List.range' 1 (enoughDigits f)).findSome?
      (neighbour f tie x.magnitude x.ratio) with
  | none =>
      have hmem : enoughDigits f ∈ List.range' 1 (enoughDigits f) := by
        rw [List.mem_range'_1]
        omega
      cases hlast.symm.trans (List.findSome?_eq_none_iff.mp hsearch _ hmem)
  | some decimal =>
      obtain ⟨n, e⟩ := decimal
      have hshortest : x.shortest tie = ⟨x.negative, (stripZeros n e).1, (stripZeros n e).2⟩ := by
        rw [shortest, if_neg h, hsearch, Option.getD_some]
      obtain ⟨before, digits, after, hrange, hneighbour, hnone⟩ :=
        List.findSome?_eq_some_iff.mp hsearch
      obtain ⟨k, hk, hbefore, hafter⟩ := List.range'_eq_append_iff.mp hrange
      obtain ⟨hdigits, hrest, -⟩ := List.range'_eq_cons_iff.mp hafter.symm
      refine ⟨digits, n, e, by omega, by omega, hneighbour, ?_, hshortest⟩
      intro less hpos hless
      apply hnone
      rw [hbefore, List.mem_range'_1]
      omega

namespace Found

variable {n : Nat} {e : ℤ}

/-- The search ends with a neighbour that is read as the number, with none nearer of those that are. -/
theorem taken (h : Found tie x digits n e) :
  Taken f x.magnitude x.ratio digits n e
  := taken_of_neighbour h.neighbour_eq

theorem coefficient_ne_zero (h : Found tie x digits n e) (hne : x.magnitude ≠ 0) :
  n ≠ 0
  := Literal.coefficient_ne_zero h.taken.magnitude_eq hne

/-- The decimal that is found has the value of the neighbour that ended the search. -/
theorem value_eq (h : Found tie x digits n e) :
  (x.shortest tie).value = n * 10 ^ e
  := by
  rw [h.shortest_eq]
  apply (stripZeros_spec n e).1

/-- The decimal that is found has no more digits than its grid, even if the neighbour that ended the
search is the next power of ten. -/
theorem digitCount_le (h : Found tie x digits n e) (hne : x.magnitude ≠ 0) :
  digitCount (x.shortest tie).coefficient ≤ digits
  := by
  have hfloor := (gridFloor_bounds (x.num_ratio_pos_iff.mpr hne) h.pos).2
  rw [h.shortest_eq]
  apply digitCount_stripZeros_le e (h.coefficient_ne_zero hne) h.pos
  cases h.taken.isBeside with
  | inl heq =>
      rw [heq]
      apply hfloor.le
  | inr heq =>
      rw [heq]
      apply hfloor

/-- No decimal with fewer digits than the grid is read as the number. -/
theorem le_digitCount (h : Found tie x digits n e) (hfinite : x.isFinite = true)
    (hne : x.magnitude ≠ 0) {l : Literal} (hread : l.magnitude f = x.magnitude) :
  digits ≤ digitCount l.coefficient
  := by
  by_contra hless
  have hcount := lt_pow_digitCount l.coefficient
  obtain ⟨m, i, hneighbour, -⟩ :=
    exists_neighbour tie hfinite hne (digitCount_pos _) hcount hread
  cases hneighbour.symm.trans (h.least _ (digitCount_pos _) (not_le.mp hless))

end Found

/-! ### The decimal that is found -/

/-- Zero is its own shortest decimal, with its sign. -/
theorem shortest_zero (h : x.magnitude = 0) :
  x.shortest tie = ⟨x.negative, 0, 0⟩
  := by
  rw [shortest, if_pos h]

/-- The shortest decimal of a finite number is read as the number, and has no more than enough digits. -/
theorem shortest_spec (tie : Tie) (hfinite : x.isFinite = true) :
  (x.shortest tie).negative = x.negative ∧ (x.shortest tie).magnitude f = x.magnitude
    ∧ digitCount (x.shortest tie).coefficient ≤ enoughDigits f
  := by
  obtain hzero | hne := eq_or_ne x.magnitude 0
  · rw [shortest_zero hzero, hzero]
    refine ⟨rfl, ?_, ?_⟩
    · rw [Literal.magnitude]
      apply if_pos rfl
    · apply digitCount_le (Nat.succ_pos _) (pow_pos (by decide) _)
  · obtain ⟨digits, n, e, hfound⟩ := exists_found tie hfinite hne
    refine ⟨?_, ?_, ?_⟩
    · rw [hfound.shortest_eq]
    · rw [← hfound.taken.magnitude_eq]
      apply Literal.magnitude_congr
      apply hfound.value_eq
    · apply (hfound.digitCount_le hne).trans hfound.le

/-- No decimal that is read as a number has fewer digits than the shortest one. -/
theorem digitCount_shortest_le (tie : Tie) (hfinite : x.isFinite = true) {l : Literal}
    (hread : l.magnitude f = x.magnitude) :
  digitCount (x.shortest tie).coefficient ≤ digitCount l.coefficient
  := by
  obtain hzero | hne := eq_or_ne x.magnitude 0
  · rw [shortest_zero hzero]
    apply digitCount_pos
  · obtain ⟨digits, n, e, hfound⟩ := exists_found tie hfinite hne
    apply (hfound.digitCount_le hne).trans (hfound.le_digitCount hfinite hne hread)

example : (ofBits 0x44b52d02c7e14af6 : Binary .double).shortest .even = ⟨false, 1, 23⟩ := by
  decide +kernel

/-- No decimal that is read as a number and has as few digits as the shortest one is nearer to the
number. -/
theorem shortest_dist_le (tie : Tie) (hfinite : x.isFinite = true) {l : Literal}
    (hread : l.magnitude f = x.magnitude)
    (hcount : digitCount l.coefficient ≤ digitCount (x.shortest tie).coefficient) :
  |x.ratio.toRat - (x.shortest tie).value| ≤ |x.ratio.toRat - l.value|
  := by
  obtain hzero | hne := eq_or_ne x.magnitude 0
  · have hratio : x.ratio.toRat = 0 := toRat_ratio_of_isZero (beq_iff_eq.mpr hzero)
    have hvalue : (x.shortest tie).value = 0 := by
      rw [shortest_zero hzero, Literal.value_eq_zero_iff]
    rw [hratio, hvalue, sub_zero, abs_zero]
    apply abs_nonneg
  · obtain ⟨digits, n, e, hfound⟩ := exists_found tie hfinite hne
    have hlt : l.coefficient < 10 ^ digits := by
      apply (lt_pow_digitCount l.coefficient).trans_le
      apply Nat.pow_le_pow_right (by decide) (hcount.trans (hfound.digitCount_le hne))
    obtain ⟨m, i, hneighbour, hnear⟩ := exists_neighbour tie hfinite hne hfound.pos hlt hread
    cases hfound.neighbour_eq.symm.trans hneighbour
    rw [hfound.value_eq]
    apply hnear

end RenderKernel.Binary
