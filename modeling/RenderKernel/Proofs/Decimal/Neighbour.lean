import RenderKernel.Proofs.Decimal.Precision

/-!
# The neighbours of a value among the decimals

On the grid of decimals with some significant digits a value lies between two neighbours, and no other
decimal with so many digits lies between them (`le_or_ge_of_lt_pow`).  If a decimal with so many digits
is read as a number, the neighbour on its side is read as the number too, and the neighbour that is
taken is at least as near (`Binary.exists_neighbour`).
-/

namespace RenderKernel.Decimal

variable {f : Format}

/-! ### The grid of some significant digits -/

/-- The exponent of the last of some significant digits of a ratio. -/
def gridExponent (digits : Nat) (r : Ratio) : ℤ := r.floorLog10 + 1 - digits

/-- The greatest integer up to a ratio, in units of the last of some significant digits. -/
def gridFloor (digits : Nat) (r : Ratio) : Nat := (r.scale10 (-gridExponent digits r)).floor

/-- The two integers next to a ratio, in units of the last of some significant digits. -/
def IsBeside (digits : Nat) (r : Ratio) (k : Nat) : Prop :=
  k = gridFloor digits r ∨ k = gridFloor digits r + 1

variable {digits : Nat} {r : Ratio}

/-- A ratio lies between its neighbours on a grid, or is the lower one. -/
theorem gridFloor_mul_bounds (digits : Nat) (r : Ratio) :
  gridFloor digits r * 10 ^ gridExponent digits r ≤ r.toRat
    ∧ r.toRat < (gridFloor digits r + 1 : Nat) * 10 ^ gridExponent digits r
  := by
  have hunit := zpow_pos ten_pos (gridExponent digits r)
  have hlow := Int.floor_le (r.scale10 (-gridExponent digits r)).toRat
  have hhigh := Int.lt_floor_add_one (r.scale10 (-gridExponent digits r)).toRat
  rw [← Ratio.floor_eq, Int.cast_natCast, Ratio.toRat_scale10] at hlow hhigh
  rw [← mul_zpow_neg_mul ten_pos r.toRat (gridExponent digits r), Nat.cast_succ]
  exact ⟨mul_le_mul_of_nonneg_right hlow hunit.le, mul_lt_mul_of_pos_right hhigh hunit⟩

/-- In units of the last of some significant digits, the integer below a ratio has exactly so many
digits. -/
theorem gridFloor_bounds (hr : 0 < r.num) (hdigits : 0 < digits) :
  10 ^ (digits - 1) ≤ gridFloor digits r ∧ gridFloor digits r < 10 ^ digits
  := by
  obtain ⟨hlow, hhigh⟩ := scaled_bounds hdigits (Ratio.toRat_pos_iff.mpr hr)
  have hscale : (digits : ℤ) - 1 - Int.log 10 r.toRat = -gridExponent digits r := by
    rw [gridExponent, Ratio.floorLog10_eq hr]
    ring
  rw [hscale, ← Ratio.toRat_scale10] at hlow hhigh
  constructor
  · zify
    rw [gridFloor, Ratio.floor_eq]
    apply Int.le_floor.mpr
    exact_mod_cast hlow
  · zify
    rw [gridFloor, Ratio.floor_eq]
    apply Int.floor_lt.mpr
    exact_mod_cast hhigh

/-- No decimal of some digits lies between the neighbours of a ratio on their grid: in units of a lower
place it is below the first digit of the ratio, and in those of this place or a higher one it is on the
grid. -/
theorem le_or_ge_of_lt_pow (hr : 0 < r.num) (hdigits : 0 < digits) {l : Literal}
    (h : l.coefficient < 10 ^ digits) :
  l.value ≤ gridFloor digits r * 10 ^ gridExponent digits r
    ∨ (gridFloor digits r + 1 : Nat) * 10 ^ gridExponent digits r ≤ l.value
  := by
  have hunit := zpow_pos ten_pos (gridExponent digits r)
  obtain hfiner | hcoarser := lt_or_ge l.exponent (gridExponent digits r)
  · apply Or.inl
    have hfirst := (gridFloor_bounds hr hdigits).1
    calc
      l.value
      _ ≤ 10 ^ digits * 10 ^ l.exponent := by
          rw [Literal.value]
          apply mul_le_mul_of_nonneg_right _ (zpow_pos ten_pos _).le
          exact_mod_cast h.le
      _ = 10 ^ (digits + l.exponent) := (zpow_eq_pow_mul rfl).symm
      _ ≤ 10 ^ ((digits - 1 : ℕ) + gridExponent digits r) := by
          apply zpow_le_zpow_right₀ (by norm_num)
          omega
      _ = 10 ^ (digits - 1) * 10 ^ gridExponent digits r := zpow_eq_pow_mul rfl
      _ ≤ gridFloor digits r * 10 ^ gridExponent digits r := by
          apply mul_le_mul_of_nonneg_right _ hunit.le
          exact_mod_cast hfirst
  · obtain ⟨k, hk⟩ := Int.eq_ofNat_of_zero_le (sub_nonneg.mpr hcoarser)
    have hvalue : l.value = (l.coefficient * 10 ^ k : ℕ) * 10 ^ gridExponent digits r := by
      rw [Literal.value, zpow_eq_pow_mul (show l.exponent = k + gridExponent digits r by omega)]
      push_cast
      ring
    rw [hvalue]
    obtain hbelow | habove := Nat.lt_or_ge (l.coefficient * 10 ^ k) (gridFloor digits r + 1)
    · apply Or.inl
      apply mul_le_mul_of_nonneg_right _ hunit.le
      exact_mod_cast Nat.le_of_lt_succ hbelow
    · apply Or.inr
      apply mul_le_mul_of_nonneg_right _ hunit.le
      exact_mod_cast habove

/-! ### The neighbour that is taken -/

/-- The integer below a ratio is chosen only if it is no farther than a half, and the one above only if
the one below is no nearer. -/
theorem nearer_cases (tie : Tie) (r : Ratio) :
  (tie.nearer r r.floor = r.floor ∧ r.toRat - r.floor ≤ 1 / 2)
    ∨ (tie.nearer r r.floor = r.floor + 1 ∧ 1 / 2 ≤ r.toRat - r.floor)
  := by
  have hrest : r.toRat - r.floor = (r.num % r.den : ℕ) / (r.den : ℚ) := by
    rw [← Ratio.toRat_sub_floor, ← Ratio.floor_eq, Int.cast_natCast]
  have htwice : r.num - r.floor * r.den = r.num % r.den := Nat.mod_eq_sub_div_mul.symm
  have hle : r.toRat - r.floor ≤ 1 / 2 ↔ 2 * (r.num % r.den) ≤ r.den := by
    rw [hrest, div_le_div_iff₀ r.den_cast_pos two_pos, one_mul, mul_comm]
    norm_cast
  have hge : 1 / 2 ≤ r.toRat - r.floor ↔ r.den ≤ 2 * (r.num % r.den) := by
    rw [hrest, div_le_div_iff₀ two_pos r.den_cast_pos, one_mul, mul_comm]
    norm_cast
  rw [hle, hge]
  simp only [Tie.nearer, htwice]
  split
  · rename_i hbelow
    exact .inl ⟨rfl, hbelow.le⟩
  · rename_i hhalf
    split
    · rename_i habove
      exact .inr ⟨rfl, habove.le⟩
    · rename_i hhalf'
      have hboth : 2 * (r.num % r.den) = r.den := by omega
      cases tie with
      | even =>
          simp only
          split
          · exact .inl ⟨rfl, hboth.le⟩
          · exact .inr ⟨rfl, hboth.ge⟩
      | up => exact .inr ⟨rfl, hboth.ge⟩

/-- Neither of the two integers next to a ratio is nearer than the one that is chosen. -/
theorem nearer_dist_le (tie : Tie) (r : Ratio) {k : Nat} (h : k = r.floor ∨ k = r.floor + 1) :
  |r.toRat - tie.nearer r r.floor| ≤ |r.toRat - k|
  := by
  have hbelow := Int.floor_le r.toRat
  have habove := Int.lt_floor_add_one r.toRat
  rw [← Ratio.floor_eq, Int.cast_natCast] at hbelow habove
  have hfloor : |r.toRat - r.floor| = r.toRat - r.floor := abs_of_nonneg (sub_nonneg.mpr hbelow)
  have hsucc : |r.toRat - (r.floor + 1 : ℕ)| = r.floor + 1 - r.toRat := by
    rw [abs_sub_comm, Nat.cast_succ, abs_of_pos (sub_pos.mpr habove)]
  cases nearer_cases tie r with
  | inl hlow =>
      obtain ⟨heq, hhalf⟩ := hlow
      rw [heq, hfloor]
      cases h with
      | inl hk => rw [hk, hfloor]
      | inr hk =>
          rw [hk, hsucc]
          linarith
  | inr hhigh =>
      obtain ⟨heq, hhalf⟩ := hhigh
      rw [heq, hsucc]
      cases h with
      | inl hk =>
          rw [hk, hfloor]
          linarith
      | inr hk => rw [hk, hsucc]

/-- A neighbour that is read as a magnitude, with none nearer of those that are. -/
structure Taken (f : Format) (magnitude : Nat) (r : Ratio) (digits n : Nat) (e : ℤ) : Prop where
  exponent_eq : e = gridExponent digits r
  isBeside : IsBeside digits r n
  magnitude_eq : Literal.magnitude f ⟨false, n, e⟩ = magnitude
  dist_le : ∀ k, IsBeside digits r k → Literal.magnitude f ⟨false, k, e⟩ = magnitude →
    |r.toRat - n * 10 ^ e| ≤ |r.toRat - k * 10 ^ e|

variable {tie : Tie} {magnitude : Nat}

theorem readsBack_iff {k : Nat} {e : ℤ} :
  readsBack f magnitude k e = true ↔ Literal.magnitude f ⟨false, k, e⟩ = magnitude
  := beq_iff_eq

/-- The neighbour that is taken, in terms of the grid. -/
theorem neighbour_eq (f : Format) (tie : Tie) (magnitude : Nat) (r : Ratio) (digits : Nat) :
  neighbour f tie magnitude r digits
    = match readsBack f magnitude (gridFloor digits r) (gridExponent digits r),
          readsBack f magnitude (gridFloor digits r + 1) (gridExponent digits r) with
      | false, false => none
      | true, false => some (gridFloor digits r, gridExponent digits r)
      | false, true => some (gridFloor digits r + 1, gridExponent digits r)
      | true, true => some (tie.nearer (r.scale10 (-gridExponent digits r)) (gridFloor digits r),
          gridExponent digits r)
  := rfl

/-- If both neighbours are read as the magnitude, the nearer one is taken. -/
theorem taken_nearer (tie : Tie)
    (hlow : readsBack f magnitude (gridFloor digits r) (gridExponent digits r) = true)
    (hhigh : readsBack f magnitude (gridFloor digits r + 1) (gridExponent digits r) = true) :
  Taken f magnitude r digits (tie.nearer (r.scale10 (-gridExponent digits r)) (gridFloor digits r))
    (gridExponent digits r)
  := by
  have hbeside : IsBeside digits r
      (tie.nearer (r.scale10 (-gridExponent digits r)) (gridFloor digits r)) :=
    (nearer_cases tie (r.scale10 (-gridExponent digits r))).imp And.left And.left
  constructor
  · rfl
  · apply hbeside
  · apply readsBack_iff.mp
    cases hbeside with
    | inl heq => rwa [heq]
    | inr heq => rwa [heq]
  · intro k hk _
    have hnear := nearer_dist_le tie (r.scale10 (-gridExponent digits r)) hk
    rw [Ratio.toRat_scale10] at hnear
    rw [abs_sub_mul_zpow ten_pos, abs_sub_mul_zpow ten_pos]
    apply mul_le_mul_of_nonneg_right hnear (zpow_pos ten_pos _).le

/-- If only one neighbour is read as the magnitude, it is taken. -/
theorem taken_only {n m : Nat} (hn : IsBeside digits r n)
    (hbeside : ∀ k, IsBeside digits r k → k = n ∨ k = m)
    (hread : readsBack f magnitude n (gridExponent digits r) = true)
    (hother : readsBack f magnitude m (gridExponent digits r) = false) :
  Taken f magnitude r digits n (gridExponent digits r)
  := by
  constructor
  · rfl
  · apply hn
  · apply readsBack_iff.mp hread
  · intro k hk hkread
    obtain rfl | rfl := hbeside k hk
    · rfl
    · cases hother.symm.trans (readsBack_iff.mpr hkread)

/-- A neighbour is only taken if it is read as the magnitude, and then the nearest one is. -/
theorem taken_of_neighbour {n : Nat} {e : ℤ}
    (h : neighbour f tie magnitude r digits = some (n, e)) :
  Taken f magnitude r digits n e
  := by
  rw [neighbour_eq] at h
  split at h
  · cases h
  · rename_i hlow hhigh
    cases h
    apply taken_only (.inl rfl) (fun k hk => hk) hlow hhigh
  · rename_i hlow hhigh
    cases h
    apply taken_only (.inr rfl) (fun k hk => hk.symm) hhigh hlow
  · rename_i hlow hhigh
    cases h
    apply taken_nearer tie hlow hhigh

/-- If a neighbour is read as the magnitude, one is taken. -/
theorem exists_taken (tie : Tie) {k : Nat} (hk : IsBeside digits r k)
    (hread : Literal.magnitude f ⟨false, k, gridExponent digits r⟩ = magnitude) :
  ∃ n e, neighbour f tie magnitude r digits = some (n, e)
  := by
  have hkread := readsBack_iff.mpr hread
  rw [neighbour_eq]
  split
  · rename_i hlow hhigh
    obtain rfl | rfl := hk
    · cases hlow.symm.trans hkread
    · cases hhigh.symm.trans hkread
  · exact ⟨_, _, rfl⟩
  · exact ⟨_, _, rfl⟩
  · exact ⟨_, _, rfl⟩

end RenderKernel.Decimal

namespace RenderKernel.Binary

open Decimal

variable {f : Format} {x : Binary f}

/-- If a decimal of some digits is read as a number, so is the neighbour on its side on the grid of so
many digits, and the neighbour that is taken is at least as near. -/
theorem exists_neighbour (tie : Tie) (hfinite : x.isFinite = true) (h : x.magnitude ≠ 0)
    (hdigits : 0 < digits) {l : Literal} (hcount : l.coefficient < 10 ^ digits)
    (hread : l.magnitude f = x.magnitude) :
  ∃ n e, neighbour f tie x.magnitude x.ratio digits = some (n, e)
    ∧ |x.ratio.toRat - n * 10 ^ e| ≤ |x.ratio.toRat - l.value|
  := by
  obtain ⟨hbelow, habove⟩ := gridFloor_mul_bounds digits x.ratio
  have hside : ∃ k, IsBeside digits x.ratio k
      ∧ Literal.magnitude f ⟨false, k, gridExponent digits x.ratio⟩ = x.magnitude
      ∧ |x.ratio.toRat - k * 10 ^ gridExponent digits x.ratio| ≤ |x.ratio.toRat - l.value| := by
    cases le_or_ge_of_lt_pow (x.num_ratio_pos_iff.mpr h) hdigits hcount with
    | inl hle =>
        refine ⟨_, .inl rfl, Literal.magnitude_of_le hfinite hread hle hbelow, ?_⟩
        rw [abs_of_nonneg (sub_nonneg.mpr hbelow), abs_of_nonneg (sub_nonneg.mpr (hle.trans hbelow))]
        apply sub_le_sub_left hle
    | inr hge =>
        refine ⟨_, .inr rfl, Literal.magnitude_of_ge hfinite hread habove.le hge, ?_⟩
        rw [abs_sub_comm, abs_of_nonneg (sub_nonneg.mpr habove.le), abs_sub_comm,
          abs_of_nonneg (sub_nonneg.mpr (habove.le.trans hge))]
        apply sub_le_sub_right hge
  obtain ⟨k, hk, hkread, hnear⟩ := hside
  obtain ⟨n, e, hneighbour⟩ := exists_taken tie hk hkread
  have htaken := taken_of_neighbour hneighbour
  refine ⟨n, e, hneighbour, le_trans ?_ hnear⟩
  obtain rfl := htaken.exponent_eq
  apply htaken.dist_le k hk hkread

end RenderKernel.Binary
