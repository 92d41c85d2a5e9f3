import RenderKernel.Number.Rounding
import RenderKernel.Proofs.Number.Ratio

/-!
# Rounding to a binary format

The magnitude that is nearest to a ratio depends only on the rational number that the ratio stands
for, and a finite number is nearest to its own value (`Binary.nearest_ratio`): the number of its last
place is the exponent to which its value is rounded, and there it is an integer already.
-/

namespace RenderKernel

/-! ### Rounding of ratios -/

namespace Format

variable {f : Format} {r s : Ratio}

/-- Ratios that stand for the same number are rounded alike. -/
theorem nearest_congr (h : r.toRat = s.toRat) :
  f.nearest r = f.nearest s
  := by
  have hzero : r.num = 0 ↔ s.num = 0 := by
    have hpos : 0 < r.num ↔ 0 < s.num := by rw [← Ratio.toRat_pos_iff, h, Ratio.toRat_pos_iff]
    omega
  rw [nearest, nearest]
  simp only [hzero]
  split
  · rfl
  · rename_i hs
    have hspos : 0 < s.num := Nat.pos_of_ne_zero hs
    have hrpos : 0 < r.num := Nat.pos_of_ne_zero (mt hzero.mp hs)
    have hlast : f.lastExponent r = f.lastExponent s := by
      rw [lastExponent, lastExponent, Ratio.floorLog2_eq hrpos, Ratio.floorLog2_eq hspos, h]
    have hround : (r.scale2 (-f.lastExponent r)).nearest = (s.scale2 (-f.lastExponent s)).nearest := by
      apply Int.natCast_inj.mp
      rw [Ratio.nearest_eq, Ratio.nearest_eq, Ratio.toRat_scale2, Ratio.toRat_scale2, h, hlast]
    rw [hround, hlast]

theorem leastExponent_le_one (f : Format) :
  f.leastExponent ≤ 1
  := by
  have hpos : 0 < Nat.pow 2 (f.exponentBits - 1) := Nat.two_pow_pos _
  rw [leastExponent]
  omega

/-- What lies beyond all finite numbers is rounded to infinity, because it has a leading bit in a place
above all those of finite numbers. -/
theorem nearest_of_le (h : (2 : ℚ) ^ (2 ^ (f.exponentBits - 1)) ≤ r.toRat) :
  f.nearest r = f.infinity
  := by
  have hpos : 0 < r.toRat := (pow_pos two_pos _).trans_le h
  have hnum := Ratio.toRat_pos_iff.mp hpos
  have hlog : (2 ^ (f.exponentBits - 1) : ℕ) ≤ Int.log 2 r.toRat := by
    apply (Int.zpow_le_iff_le_log (b := 2) (by decide) hpos).mp
    rw [zpow_natCast]
    exact_mod_cast h
  have hbias : 1 ≤ 2 ^ (f.exponentBits - 1) := Nat.two_pow_pos _
  have hlast : f.lastExponent r = Int.log 2 r.toRat - f.fractionBits := by
    rw [lastExponent, Ratio.floorLog2_eq hnum, leastExponent, Nat.pow_eq]
    omega
  have hround : f.fractions ≤ (r.scale2 (-f.lastExponent r)).nearest := by
    zify
    rw [Ratio.nearest_eq, Ratio.toRat_scale2, ← halfEven_intCast f.fractions]
    apply halfEven_mono
    have hlow := Int.zpow_log_le_self (b := 2) (by decide) hpos
    rw [Nat.cast_ofNat] at hlow
    have hsplit : ((f.fractions : ℤ) : ℚ) = 2 ^ Int.log 2 r.toRat * 2 ^ (-f.lastExponent r) := by
      rw [← zpow_add₀ two_ne_zero, hlast, Int.cast_natCast, fractions, Nat.pow_eq, Nat.cast_pow,
        Nat.cast_ofNat, ← zpow_natCast]
      congr 1
      ring
    rw [hsplit]
    apply mul_le_mul_of_nonneg_right hlow (zpow_pos two_pos _).le
  have hcount : Nat.pow 2 f.exponentBits - 1 ≤ (f.lastExponent r - f.leastExponent).toNat + 1 := by
    have hdouble : 2 ^ f.exponentBits ≤ 2 * 2 ^ (f.exponentBits - 1) := by
      rw [← Nat.pow_succ']
      apply Nat.pow_le_pow_right two_pos (by omega)
    rw [hlast, leastExponent, Nat.pow_eq, Nat.pow_eq]
    omega
  rw [nearest, if_neg hnum.ne']
  apply Nat.min_eq_right
  rw [infinity]
  apply (Nat.mul_le_mul_right f.fractions hcount).trans
  rw [Nat.succ_mul]
  apply Nat.add_le_add_left hround

/-- What lies below half of the least positive number is rounded to zero. -/
theorem nearest_of_lt (h : r.toRat < 2 ^ (f.leastExponent - 1)) :
  f.nearest r = 0
  := by
  rw [nearest]
  split
  · rfl
  · rename_i hnum
    have hpos := Ratio.toRat_pos_iff.mpr (Nat.pos_of_ne_zero hnum)
    have hlog : Int.log 2 r.toRat < f.leastExponent - 1 := by
      apply (Int.lt_zpow_iff_log_lt (b := 2) (by decide) hpos).mp
      rwa [Nat.cast_ofNat]
    have hlast : f.lastExponent r = f.leastExponent := by
      rw [lastExponent, Ratio.floorLog2_eq (Nat.pos_of_ne_zero hnum)]
      omega
    have hround : (r.scale2 (-f.leastExponent)).nearest = 0 := by
      apply Int.natCast_inj.mp
      have hhalf : r.toRat * 2 ^ (-f.leastExponent) < 1 / 2 := by
        rw [zpow_neg, ← div_eq_mul_inv, div_lt_iff₀ (zpow_pos two_pos _)]
        rw [zpow_sub_one₀ two_ne_zero] at h
        linarith
      rw [Ratio.nearest_eq, Ratio.toRat_scale2, halfEven_eq_iff]
      apply Or.inl
      rw [Nat.cast_zero, Int.cast_zero, sub_zero, abs_of_pos (mul_pos hpos (zpow_pos two_pos _))]
      apply hhalf
    simp only [hlast]
    rw [hround, sub_self, Int.toNat_zero, Nat.zero_mul, Nat.zero_add, Nat.zero_min]

end Format

/-! ### Finite numbers -/

namespace Binary

variable {f : Format} (x : Binary f)

/-- The absolute value of a finite number. -/
theorem toRat_ratio :
  x.ratio.toRat = x.significand * (2 : ℚ) ^ x.exponent
  := by
  rw [ratio, Ratio.toRat_scale2, Ratio.toRat_ofNat]

/-- The number that a finite pattern stands for, with its sign. -/
def toRat (x : Binary f) : ℚ := if x.negative then -x.ratio.toRat else x.ratio.toRat

/-- The sign of a number does not change its absolute value. -/
theorem abs_toRat :
  |x.toRat| = x.ratio.toRat
  := by
  rw [toRat]
  split
  · rw [abs_neg, abs_of_nonneg x.ratio.toRat_nonneg]
  · rw [abs_of_nonneg x.ratio.toRat_nonneg]

/-- A pattern is finite if it is a number and not infinite. -/
theorem isFinite_iff :
  x.isFinite = true ↔ x.isNaN = false ∧ x.isInfinite = false
  := by
  rw [isFinite, isNaN, isInfinite, decide_eq_true_eq, decide_eq_false_iff_not, beq_eq_false_iff_ne]
  omega

/-- No number has an exponent below the least one. -/
theorem leastExponent_le_exponent :
  f.leastExponent ≤ x.exponent
  := by
  rw [exponent]
  omega

/-- Counted from the least exponent, a magnitude is its significand behind all fractions of the
exponents below its own. -/
theorem magnitude_eq :
  x.magnitude = (x.exponent - f.leastExponent).toNat * f.fractions + x.significand
  := by
  have hexponent : (x.exponent - f.leastExponent).toNat = x.biasedExponent - 1 := by
    rw [exponent]
    omega
  rw [hexponent, significand]
  split
  · rename_i hzero
    rw [hzero, Nat.zero_sub, Nat.zero_mul, Nat.zero_add]
  · rename_i hpos
    obtain ⟨b, hb⟩ := Nat.exists_eq_succ_of_ne_zero hpos
    have hsplit : (b + 1) * f.fractions + x.magnitude % f.fractions = x.magnitude := by
      rw [← Nat.succ_eq_add_one, ← hb]
      apply Nat.div_add_mod'
    rw [hb, Nat.succ_sub_one]
    rw [Nat.add_mul, Nat.one_mul] at hsplit
    omega

/-- A significand has at most one bit in front of the fraction. -/
theorem significand_lt :
  x.significand < 2 * f.fractions
  := by
  rw [significand]
  split
  · rename_i hzero
    have hlt := (Nat.div_eq_zero_iff_lt f.fractions_pos).mp hzero
    omega
  · have hlt := Nat.mod_lt x.magnitude f.fractions_pos
    omega

/-- Only zeros have the significand zero. -/
theorem significand_eq_zero_iff :
  x.significand = 0 ↔ x.magnitude = 0
  := by
  rw [significand]
  split
  · rfl
  · rename_i hpos
    have hfractions := f.fractions_pos
    have hnonzero : x.magnitude ≠ 0 := by
      intro hzero
      apply hpos
      rw [biasedExponent, hzero, Nat.zero_div]
    omega

/-- Either zero has the absolute value zero. -/
theorem toRat_ratio_of_isZero {x : Binary f} (h : x.isZero = true) :
  x.ratio.toRat = 0
  := by
  have hmagnitude : x.magnitude = 0 := eq_of_beq h
  rw [toRat_ratio, x.significand_eq_zero_iff.mpr hmagnitude, Nat.cast_zero, zero_mul]

/-- The absolute value of a number is positive unless its magnitude is zero. -/
theorem num_ratio_pos_iff :
  0 < x.ratio.num ↔ x.magnitude ≠ 0
  := by
  rw [← Ratio.toRat_pos_iff, toRat_ratio, mul_pos_iff_of_pos_right (zpow_pos two_pos _),
    Nat.cast_pos, Nat.pos_iff_ne_zero, Ne, significand_eq_zero_iff]

/-- The sign of a number other than zero is the sign of its value. -/
theorem toRat_neg_iff (h : x.magnitude ≠ 0) :
  x.toRat < 0 ↔ x.negative = true
  := by
  have hpos := Ratio.toRat_pos_iff.mpr (x.num_ratio_pos_iff.mpr h)
  rw [toRat]
  split
  · rename_i hnegative
    exact ⟨fun _ => hnegative, fun _ => neg_lt_zero.mpr hpos⟩
  · rename_i hpositive
    exact ⟨fun hlt => absurd hlt (not_lt.mpr hpos.le), fun hneg => absurd hneg hpositive⟩

/-- A number with an exponent above the least has a leading bit. -/
theorem fractions_le_significand (h : f.leastExponent < x.exponent) :
  f.fractions ≤ x.significand
  := by
  rw [exponent] at h
  rw [significand, if_neg (by omega)]
  apply Nat.le_add_right

/-- The place to which the value of a number is rounded is its last place. -/
theorem lastExponent_ratio (h : x.magnitude ≠ 0) :
  f.lastExponent x.ratio = x.exponent
  := by
  have hsig := mt x.significand_eq_zero_iff.mp h
  have hlt := x.significand_lt
  have hlog : x.ratio.floorLog2 = Nat.log 2 x.significand + x.exponent := by
    rw [Ratio.floorLog2_eq (x.num_ratio_pos_iff.mpr h), toRat_ratio]
    apply Ratio.log_natCast_mul_zpow one_lt_two hsig
  have hhigh : Nat.log 2 x.significand < f.fractionBits + 1 := by
    apply Nat.log_lt_of_lt_pow hsig
    rw [pow_succ, mul_comm]
    apply hlt
  rw [Format.lastExponent, hlog]
  obtain hleast | hleast := x.leastExponent_le_exponent.lt_or_eq
  · have hlow : f.fractionBits ≤ Nat.log 2 x.significand :=
      Nat.le_log_of_pow_le one_lt_two (x.fractions_le_significand hleast)
    omega
  · omega

/-- A finite number is nearest to its own value. -/
theorem nearest_ratio (h : x.magnitude < f.infinity) :
  f.nearest x.ratio = x.magnitude
  := by
  by_cases hzero : x.magnitude = 0
  · have hnum : x.ratio.num = 0 := by
      have hiff := x.num_ratio_pos_iff
      omega
    rw [Format.nearest, if_pos hnum, hzero]
  · have hnum := (x.num_ratio_pos_iff.mpr hzero).ne'
    have hround : (x.ratio.scale2 (-x.exponent)).nearest = x.significand := by
      apply Int.natCast_inj.mp
      rw [Ratio.nearest_eq, Ratio.toRat_scale2, toRat_ratio, mul_zpow_mul_neg two_pos]
      apply halfEven_intCast
    rw [Format.nearest, if_neg hnum, x.lastExponent_ratio hzero]
    simp only
    rw [hround, ← magnitude_eq]
    apply Nat.min_eq_left h.le

/-- A finite number lies below the power of two from which on everything is rounded to infinity. -/
theorem toRat_ratio_lt (hfinite : x.isFinite = true) :
  x.ratio.toRat < 2 ^ (2 ^ (f.exponentBits - 1))
  := by
  have hlt : x.magnitude < f.infinity := of_decide_eq_true hfinite
  by_contra hle
  have hinfinite := Format.nearest_of_le (not_lt.mp hle)
  rw [x.nearest_ratio hlt] at hinfinite
  apply hlt.ne hinfinite

/-- A number other than zero is at least the least positive one. -/
theorem zpow_le_toRat_ratio (h : x.magnitude ≠ 0) :
  2 ^ f.leastExponent ≤ x.ratio.toRat
  := by
  have hsig : (1 : ℚ) ≤ x.significand := by
    exact_mod_cast Nat.one_le_iff_ne_zero.mpr (mt x.significand_eq_zero_iff.mp h)
  rw [toRat_ratio]
  apply (zpow_le_zpow_right₀ one_le_two x.leastExponent_le_exponent).trans
  apply le_mul_of_one_le_left (zpow_pos two_pos _).le hsig

/-- The decimal exponents of the numbers of a format lie between bounds of the binary ones. -/
theorem log_ratio_bounds (hfinite : x.isFinite = true) (h : x.magnitude ≠ 0) :
  f.leastExponent - 1 ≤ Int.log 10 x.ratio.toRat
    ∧ Int.log 10 x.ratio.toRat < (2 ^ (f.exponentBits - 1) : ℕ)
  := by
  have hpos := Ratio.toRat_pos_iff.mpr (x.num_ratio_pos_iff.mpr h)
  constructor
  · apply (Int.zpow_le_iff_le_log (b := 10) (by decide) hpos).mp
    obtain ⟨k, hk⟩ := Int.eq_ofNat_of_zero_le (sub_nonneg.mpr f.leastExponent_le_one)
    have hleast : f.leastExponent - 1 = -(k : ℤ) := by omega
    calc
      ((10 : ℕ) : ℚ) ^ (f.leastExponent - 1)
      _ = (10 ^ k)⁻¹ := by rw [hleast, zpow_neg, zpow_natCast, Nat.cast_ofNat]
      _ ≤ (2 ^ k)⁻¹ := inv_anti₀ (pow_pos two_pos k) (pow_le_pow_left₀ two_pos.le (by norm_num) k)
      _ = 2 ^ (f.leastExponent - 1) := by rw [hleast, zpow_neg, zpow_natCast]
      _ ≤ 2 ^ f.leastExponent := zpow_le_zpow_right₀ one_le_two (by omega)
      _ ≤ x.ratio.toRat := x.zpow_le_toRat_ratio h
  · apply (Int.lt_zpow_iff_log_lt (b := 10) (by decide) hpos).mp
    rw [zpow_natCast, Nat.cast_ofNat]
    apply (x.toRat_ratio_lt hfinite).trans_le
    apply pow_le_pow_left₀ two_pos.le (by norm_num)

end Binary

end RenderKernel
