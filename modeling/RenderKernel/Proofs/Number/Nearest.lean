import RenderKernel.Proofs.Number.Rounding

/-!
# The number of a format that is nearest

A positive number has a last place in a format: the one in which it is less than twice the number of
fractions, and no less than this number unless the place is the least one (`LastPlace`).  Rounding
replaces the number by the nearest integer in its last place.  The result differs from it by half a
unit of this place at most (`abs_sub_nearest_le`), and no number of the format is nearer
(`nearest_dist_le`).  Conversely, what is near enough to a number of the format is rounded to it
(`nearest_of_near`); below a power of two, the numbers of a format are half as far apart as above it.

A number of one format is kept by the conversion to a wider one (`convert_exact`).
-/

namespace RenderKernel

/-! ### Last places -/

/-- The exponent of the last bit that a positive number has in a format. -/
structure LastPlace (f : Format) (a : ℚ) (q : ℤ) : Prop where
  least_le : f.leastExponent ≤ q
  lt : a < 2 * f.fractions * 2 ^ q
  le : f.leastExponent < q → f.fractions * 2 ^ q ≤ a

namespace Format

variable {f : Format} {r : Ratio}

theorem infinity_pos (h : 0 < f.exponentBits) :
  0 < f.infinity
  := by
  have hpow : 1 < 2 ^ f.exponentBits := Nat.one_lt_two_pow h.ne'
  apply Nat.mul_pos (Nat.sub_pos_of_lt hpow) f.fractions_pos

theorem fractions_cast_pos (f : Format) :
  (0 : ℚ) < f.fractions
  := Nat.cast_pos.mpr f.fractions_pos

/-- The leading bit in a place is worth the power of two as many places above it as the fraction
has. -/
theorem fractions_mul_zpow (f : Format) (q : ℤ) :
  (f.fractions : ℚ) * 2 ^ q = 2 ^ (q + f.fractionBits)
  := by
  rw [fractions, Nat.pow_eq, Nat.cast_pow, Nat.cast_ofNat, zpow_add₀ two_ne_zero, zpow_natCast,
    mul_comm]

/-- Twice the leading bit in a place is the leading bit in the next one. -/
theorem double_fractions_mul_zpow (f : Format) (q : ℤ) :
  2 * (f.fractions : ℚ) * 2 ^ q = f.fractions * 2 ^ (q + 1)
  := by
  rw [zpow_add_one₀ two_ne_zero]
  ring

/-- The exponent to which a ratio is rounded is that of its last place. -/
theorem lastPlace_lastExponent (hr : 0 < r.num) :
  LastPlace f r.toRat (f.lastExponent r)
  := by
  have hpos := Ratio.toRat_pos_iff.mpr hr
  have hlow := Int.zpow_log_le_self (b := 2) (by decide) hpos
  have hhigh := Int.lt_zpow_succ_log_self (b := 2) (by decide) r.toRat
  rw [Nat.cast_ofNat, ← Ratio.floorLog2_eq hr] at hlow hhigh
  constructor
  · apply le_max_right
  · rw [double_fractions_mul_zpow, fractions_mul_zpow]
    apply hhigh.trans_le
    apply zpow_le_zpow_right₀ one_le_two
    rw [lastExponent]
    omega
  · intro hleast
    rw [fractions_mul_zpow]
    apply le_trans _ hlow
    apply zpow_le_zpow_right₀ one_le_two
    rw [lastExponent] at hleast ⊢
    omega

end Format

namespace LastPlace

variable {f : Format} {a b : ℚ} {p q : ℤ}

/-- The last place of a greater number is no lower one. -/
theorem mono (ha : LastPlace f a p) (hb : LastPlace f b q) (h : a ≤ b) :
  p ≤ q
  := by
  by_contra hlt
  have hleast : f.leastExponent < p := hb.least_le.trans_lt (not_le.mp hlt)
  have hbounds := ((ha.le hleast).trans h).trans_lt hb.lt
  rw [f.double_fractions_mul_zpow, mul_lt_mul_iff_right₀ f.fractions_cast_pos,
    zpow_lt_zpow_iff_right₀ one_lt_two] at hbounds
  omega

/-- A number has one last place. -/
theorem unique (hp : LastPlace f a p) (hq : LastPlace f a q) :
  p = q
  := le_antisymm (hp.mono hq le_rfl) (hq.mono hp le_rfl)

end LastPlace

/-! ### Magnitudes -/

/-- An integer in a place is compared by the place first, if it has a leading bit in every place but
the least. -/
theorem lex_of_le {n a b s k : Nat} (ha : 0 < a → n ≤ s) (hk : k < 2 * n)
    (h : a * n + s ≤ b * n + k) :
  a < b ∨ (a = b ∧ s ≤ k)
  := by
  obtain hlt | rfl | hgt := lt_trichotomy a b
  · exact .inl hlt
  · exact .inr ⟨rfl, Nat.le_of_add_le_add_left h⟩
  · have hlead := ha (Nat.zero_lt_of_lt hgt)
    have hplaces := Nat.mul_le_mul_right n (Nat.succ_le_of_lt hgt)
    rw [Nat.succ_mul] at hplaces
    omega

namespace Binary

variable {f g : Format} {x y : Binary f} {negative : Bool} {r : Ratio}

/-- In every place above the least, a number has a leading bit. -/
theorem fractions_le_of_place (x : Binary f) (h : 0 < (x.exponent - f.leastExponent).toNat) :
  f.fractions ≤ x.significand
  := x.fractions_le_significand (by omega)

/-- The exponent of a number of the format is that of its last place. -/
theorem lastPlace_ratio (x : Binary f) :
  LastPlace f x.ratio.toRat x.exponent
  := by
  have hpow := zpow_pos (two_pos (α := ℚ)) x.exponent
  rw [toRat_ratio]
  constructor
  · apply leastExponent_le_exponent
  · apply mul_lt_mul_of_pos_right _ hpow
    exact_mod_cast x.significand_lt
  · intro hleast
    apply mul_le_mul_of_nonneg_right _ hpow.le
    exact_mod_cast x.fractions_le_significand hleast

/-- Magnitudes are ordered as the absolute values that they stand for. -/
theorem toRat_ratio_mono (h : x.magnitude ≤ y.magnitude) :
  x.ratio.toRat ≤ y.ratio.toRat
  := by
  have hx := x.leastExponent_le_exponent
  have hy := y.leastExponent_le_exponent
  rw [x.magnitude_eq, y.magnitude_eq] at h
  cases lex_of_le x.fractions_le_of_place y.significand_lt h with
  | inl hplace =>
      apply x.lastPlace_ratio.lt.le.trans
      apply le_trans _ (y.lastPlace_ratio.le (by omega))
      rw [f.double_fractions_mul_zpow]
      apply mul_le_mul_of_nonneg_left _ f.fractions_cast_pos.le
      apply zpow_le_zpow_right₀ one_le_two
      omega
  | inr hplace =>
      obtain ⟨hexponent, hsignificand⟩ := hplace
      have heq : x.exponent = y.exponent := by omega
      rw [toRat_ratio, toRat_ratio, heq]
      apply mul_le_mul_of_nonneg_right _ (zpow_pos two_pos _).le
      exact_mod_cast hsignificand

/-- A magnitude that is put together from a place and an integer in it stands for this integer. -/
theorem toRat_ratio_of_magnitude {q : ℤ} {k : Nat} (hq : f.leastExponent ≤ q)
    (hk : k < 2 * f.fractions) (hlead : f.leastExponent < q → f.fractions ≤ k)
    (h : x.magnitude = (q - f.leastExponent).toNat * f.fractions + k) :
  x.ratio.toRat = k * 2 ^ q
  := by
  have hx := x.leastExponent_le_exponent
  rw [x.magnitude_eq] at h
  have hlead' : 0 < (q - f.leastExponent).toNat → f.fractions ≤ k := fun hpos => hlead (by omega)
  have hbelow := lex_of_le x.fractions_le_of_place hk h.le
  have habove := lex_of_le hlead' x.significand_lt h.ge
  have hexponent : x.exponent = q := by omega
  have hsignificand : x.significand = k := by omega
  rw [toRat_ratio, hexponent, hsignificand]

/-- The same for an integer that carries into the next place. -/
theorem toRat_ratio_of_magnitude_le {q : ℤ} {k : Nat} (hq : f.leastExponent ≤ q)
    (hk : k ≤ 2 * f.fractions) (hlead : f.leastExponent < q → f.fractions ≤ k)
    (h : x.magnitude = (q - f.leastExponent).toNat * f.fractions + k) :
  x.ratio.toRat = k * 2 ^ q
  := by
  have hpos := f.fractions_pos
  obtain hlt | rfl := hk.lt_or_eq
  · apply toRat_ratio_of_magnitude hq hlt hlead h
  · have hcarry : (q + 1 - f.leastExponent).toNat = (q - f.leastExponent).toNat + 1 := by omega
    rw [Nat.cast_mul, Nat.cast_ofNat, f.double_fractions_mul_zpow]
    apply toRat_ratio_of_magnitude
    · omega
    · omega
    · exact fun _ => le_rfl
    · rw [h, hcarry]
      ring

/-! ### Rounding -/

/-- A ratio is rounded to its nearest magnitude, whatever the sign. -/
theorem magnitude_nearest (negative : Bool) (r : Ratio) :
  (nearest negative r : Binary f).magnitude = f.nearest r
  := by
  apply Nat.min_eq_left
  rw [Format.nearest]
  split
  · apply Nat.zero_le
  · apply Nat.min_le_right

/-- A number is nearest to what is rounded to its magnitude. -/
theorem nearest_eq_self (h : f.nearest r = x.magnitude) :
  nearest x.negative r = x
  := by
  obtain ⟨negative, magnitude, hlt⟩ := x
  rw [Binary.mk.injEq]
  exact ⟨rfl, (magnitude_nearest _ _).trans h⟩

/-- The integer to which a ratio is rounded in its last place. -/
theorem rounded_bounds (hr : 0 < r.num) :
  (f.leastExponent < f.lastExponent r → f.fractions ≤ (r.scale2 (-f.lastExponent r)).nearest)
    ∧ (r.scale2 (-f.lastExponent r)).nearest ≤ 2 * f.fractions
  := by
  have hplace := f.lastPlace_lastExponent hr
  have hscale (n : ℚ) := mul_zpow_mul_neg two_pos n (f.lastExponent r)
  have hpow := zpow_pos (two_pos (α := ℚ)) (-f.lastExponent r)
  constructor
  · intro hleast
    zify
    rw [Ratio.nearest_eq, Ratio.toRat_scale2, ← halfEven_intCast f.fractions]
    apply halfEven_mono
    rw [Int.cast_natCast, ← hscale f.fractions]
    apply mul_le_mul_of_nonneg_right (hplace.le hleast) hpow.le
  · zify
    rw [Ratio.nearest_eq, Ratio.toRat_scale2, ← halfEven_intCast (2 * f.fractions)]
    apply halfEven_mono
    rw [Int.cast_mul, Int.cast_ofNat, Int.cast_natCast, ← hscale (2 * f.fractions)]
    apply mul_le_mul_of_nonneg_right hplace.lt.le hpow.le

/-- The nearest magnitude, if it is that of a finite number, is the rounded integer behind all
fractions of the lower places. -/
theorem nearest_eq_of_lt (hr : 0 < r.num) (h : f.nearest r < f.infinity) :
  f.nearest r = (f.lastExponent r - f.leastExponent).toNat * f.fractions
    + (r.scale2 (-f.lastExponent r)).nearest
  := by
  rw [Format.nearest, if_neg hr.ne'] at h ⊢
  apply Nat.min_eq_left
  apply ((min_lt_iff.mp h).resolve_right (lt_irrefl _)).le

/-- Rounding keeps the order.  In one place the integers keep it, and an integer that carries out of a
place is no greater than one with a leading bit in a higher place. -/
theorem nearest_mono {s : Ratio} (h : r.toRat ≤ s.toRat) :
  f.nearest r ≤ f.nearest s
  := by
  obtain hzero | hr := Nat.eq_zero_or_pos r.num
  · rw [Format.nearest, if_pos hzero]
    apply Nat.zero_le
  · have hs : 0 < s.num := Ratio.toRat_pos_iff.mp ((Ratio.toRat_pos_iff.mpr hr).trans_le h)
    have hrplace := f.lastPlace_lastExponent hr
    have hplaces := hrplace.mono (f.lastPlace_lastExponent hs) h
    rw [Format.nearest, Format.nearest, if_neg hr.ne', if_neg hs.ne']
    apply min_le_min_right
    obtain hlower | hsame := hplaces.lt_or_eq
    · have hcarry := (rounded_bounds (f := f) hr).2
      have hlead := (rounded_bounds (f := f) hs).1 (hrplace.least_le.trans_lt hlower)
      have hcount : (f.lastExponent r - f.leastExponent).toNat + 1
          ≤ (f.lastExponent s - f.leastExponent).toNat := by
        have hleast := hrplace.least_le
        omega
      have hunits := Nat.mul_le_mul_right f.fractions hcount
      rw [Nat.succ_mul] at hunits
      omega
    · simp only [hsame]
      apply Nat.add_le_add_left
      zify
      rw [Ratio.nearest_eq, Ratio.nearest_eq, Ratio.toRat_scale2, Ratio.toRat_scale2]
      apply halfEven_mono (mul_le_mul_of_nonneg_right h (zpow_pos two_pos _).le)

/-- What lies between two ratios that are rounded to one magnitude is rounded to it. -/
theorem nearest_eq_of_between {s t : Ratio} {magnitude : Nat} (hlow : r.toRat ≤ s.toRat)
    (hhigh : s.toRat ≤ t.toRat) (hr : f.nearest r = magnitude) (ht : f.nearest t = magnitude) :
  f.nearest s = magnitude
  := by
  apply le_antisymm
  · rw [← ht]
    apply nearest_mono hhigh
  · rw [← hr]
    apply nearest_mono hlow

/-- The value of the number that is nearest to a ratio. -/
theorem toRat_ratio_nearest (hr : 0 < r.num) (h : f.nearest r < f.infinity) :
  (nearest negative r : Binary f).ratio.toRat
    = halfEven (r.toRat * 2 ^ (-f.lastExponent r)) * 2 ^ f.lastExponent r
  := by
  obtain ⟨hlead, hle⟩ := rounded_bounds (f := f) hr
  have hinteger : ((r.scale2 (-f.lastExponent r)).nearest : ℚ)
      = halfEven (r.toRat * 2 ^ (-f.lastExponent r)) := by
    rw [← Ratio.toRat_scale2, ← Ratio.nearest_eq, Int.cast_natCast]
  rw [← hinteger]
  apply toRat_ratio_of_magnitude_le (f.lastPlace_lastExponent hr).least_le hle hlead
  rw [magnitude_nearest, nearest_eq_of_lt hr h]

/-- The nearest number is at most half a unit in the last place away. -/
theorem abs_sub_nearest_le (hr : 0 < r.num) (h : f.nearest r < f.infinity) :
  |(nearest negative r : Binary f).ratio.toRat - r.toRat| ≤ 2 ^ f.lastExponent r / 2
  := by
  rw [toRat_ratio_nearest hr h, abs_sub_comm]
  apply abs_sub_halfEven_le two_pos

/-- A number is an integer in every place below its own. -/
theorem exists_eq_intCast_mul (x : Binary f) {q : ℤ} (h : q ≤ x.exponent) :
  ∃ n : ℤ, x.ratio.toRat = n * 2 ^ q
  := by
  obtain ⟨k, hk⟩ := Int.eq_ofNat_of_zero_le (sub_nonneg.mpr h)
  have hexponent : x.exponent = k + q := by omega
  use x.significand * 2 ^ k
  rw [toRat_ratio, hexponent, zpow_add₀ two_ne_zero, zpow_natCast]
  push_cast
  ring

/-- A number of the format is an integer in the last place of a ratio, or it lies below all integers
that have a leading bit there. -/
theorem integer_or_below (r : Ratio) (y : Binary f) :
  (∃ n : ℤ, y.ratio.toRat = n * 2 ^ f.lastExponent r)
    ∨ (f.leastExponent < f.lastExponent r ∧ y.ratio.toRat < f.fractions * 2 ^ f.lastExponent r)
  := by
  obtain hlower | hreaches := lt_or_ge y.exponent (f.lastExponent r)
  · apply Or.inr
    constructor
    · apply y.leastExponent_le_exponent.trans_lt hlower
    · apply y.lastPlace_ratio.lt.trans_le
      rw [f.double_fractions_mul_zpow]
      apply mul_le_mul_of_nonneg_left _ f.fractions_cast_pos.le
      apply zpow_le_zpow_right₀ one_le_two hlower
  · exact .inl (y.exists_eq_intCast_mul hreaches)

/-- No integer in the last place of a ratio is nearer to it than the nearest number. -/
theorem nearest_dist_le_integer (hr : 0 < r.num) (h : f.nearest r < f.infinity) (n : ℤ) :
  |r.toRat - (nearest negative r : Binary f).ratio.toRat| ≤ |r.toRat - n * 2 ^ f.lastExponent r|
  := by
  rw [toRat_ratio_nearest hr h, abs_sub_mul_zpow two_pos, abs_sub_mul_zpow two_pos]
  apply mul_le_mul_of_nonneg_right _ (zpow_pos two_pos _).le
  apply (isNearest_halfEven _).dist_le

/-- What lies below the integers with a leading bit is farther away than the nearest number. -/
theorem nearest_dist_lt_of_below (hr : 0 < r.num) (h : f.nearest r < f.infinity) {a : ℚ}
    (hlead : f.leastExponent < f.lastExponent r) (ha : a < f.fractions * 2 ^ f.lastExponent r) :
  |r.toRat - (nearest negative r : Binary f).ratio.toRat| < |r.toRat - a|
  := by
  have hle := (f.lastPlace_lastExponent hr).le hlead
  apply (nearest_dist_le_integer hr h f.fractions).trans_lt
  rw [Int.cast_natCast, abs_of_nonneg (sub_nonneg.mpr hle),
    abs_of_nonneg (sub_nonneg.mpr (ha.le.trans hle))]
  apply sub_lt_sub_left ha

/-- No number of the format is nearer than the nearest one. -/
theorem nearest_dist_le (hr : 0 < r.num) (h : f.nearest r < f.infinity) (y : Binary f) :
  |r.toRat - (nearest negative r : Binary f).ratio.toRat| ≤ |r.toRat - y.ratio.toRat|
  := by
  cases integer_or_below r y with
  | inl hinteger =>
      obtain ⟨n, hn⟩ := hinteger
      rw [hn]
      apply nearest_dist_le_integer hr h
  | inr hbelow => exact (nearest_dist_lt_of_below hr h hbelow.1 hbelow.2).le

/-- If another number of the format is as near, the nearest one is even. -/
theorem nearest_even (hr : 0 < r.num) (h : f.nearest r < f.infinity) (hbits : 0 < f.fractionBits)
    {y : Binary f} (hne : (nearest negative r : Binary f).ratio.toRat ≠ y.ratio.toRat)
    (heq : |r.toRat - (nearest negative r : Binary f).ratio.toRat| = |r.toRat - y.ratio.toRat|) :
  f.nearest r % 2 = 0
  := by
  cases integer_or_below r y with
  | inl hinteger =>
      obtain ⟨n, hn⟩ := hinteger
      have hpow := zpow_pos (two_pos (α := ℚ)) (f.lastExponent r)
      rw [hn, toRat_ratio_nearest hr h] at hne heq
      rw [abs_sub_mul_zpow two_pos, abs_sub_mul_zpow two_pos, mul_left_inj' hpow.ne'] at heq
      have heven := (isNearest_halfEven _).even_of_dist_eq (fun hsame => hne (by rw [hsame])) heq
      rw [← Ratio.toRat_scale2, ← Ratio.nearest_eq] at heven
      have hfractions : f.fractions % 2 = 0 := by
        obtain ⟨b, hb⟩ := Nat.exists_eq_succ_of_ne_zero hbits.ne'
        rw [Format.fractions, hb, Nat.pow_eq, Nat.pow_succ, Nat.mul_mod_left]
      rw [nearest_eq_of_lt hr h, Nat.add_mod, Nat.mul_mod, hfractions, Nat.mul_zero, Nat.zero_mod,
        Nat.zero_add, Nat.mod_mod]
      exact_mod_cast heven
  | inr hbelow => exact absurd heq (nearest_dist_lt_of_below hr h hbelow.1 hbelow.2).ne

/-- The magnitude to which a ratio is rounded whose last place is known. -/
theorem nearest_of_lastPlace (hr : 0 < r.num) {q : ℤ} {k : Nat} (hplace : LastPlace f r.toRat q)
    (hround : halfEven (r.toRat * 2 ^ (-q)) = k) :
  f.nearest r = min ((q - f.leastExponent).toNat * f.fractions + k) f.infinity
  := by
  obtain rfl := hplace.unique (f.lastPlace_lastExponent hr)
  have hinteger : (r.scale2 (-f.lastExponent r)).nearest = k := by
    zify
    rw [Ratio.nearest_eq, Ratio.toRat_scale2, hround]
  rw [Format.nearest, if_neg hr.ne', ← hinteger]

/-- A ratio with the last place of a number is rounded to it if it is less than half a unit away. -/
theorem nearest_of_within (hfinite : x.isFinite = true) (hr : 0 < r.num)
    (hplace : LastPlace f r.toRat x.exponent)
    (hnear : |r.toRat * 2 ^ (-x.exponent) - x.significand| < 1 / 2) :
  f.nearest r = x.magnitude
  := by
  rw [nearest_of_lastPlace hr hplace (k := x.significand), ← magnitude_eq]
  · apply Nat.min_eq_left
    exact (of_decide_eq_true hfinite : x.magnitude < f.infinity).le
  · apply halfEven_of_near hnear

/-- A ratio below a power of two, where the last place is a lower one, carries into the power if it is
less than half a unit of this place away. -/
theorem nearest_of_below (hfinite : x.isFinite = true) (hleast : f.leastExponent < x.exponent)
    (hpower : x.significand = f.fractions)
    (hlow : r.toRat * 2 ^ (-x.exponent) < f.fractions)
    (hnear : |r.toRat * 2 ^ (-x.exponent) - f.fractions| < 1 / 4) :
  f.nearest r = x.magnitude
  := by
  have hpow := zpow_pos (two_pos (α := ℚ)) x.exponent
  have hone : (1 : ℚ) ≤ f.fractions := by exact_mod_cast f.fractions_pos
  have hvalue := mul_zpow_neg_mul two_pos r.toRat x.exponent
  have hdouble : r.toRat * 2 ^ (-(x.exponent - 1)) = 2 * (r.toRat * 2 ^ (-x.exponent)) := by
    rw [neg_sub, sub_eq_add_neg, zpow_one_add₀ two_ne_zero]
    ring
  have hhalve : (2 : ℚ) ^ x.exponent = 2 * 2 ^ (x.exponent - 1) := by
    rw [← zpow_one_add₀ two_ne_zero, add_sub_cancel]
  generalize r.toRat * 2 ^ (-x.exponent) = s at hlow hnear hvalue hdouble
  obtain ⟨hbelow, habove⟩ := abs_lt.mp hnear
  have hr : 0 < r.num := by
    rw [← Ratio.toRat_pos_iff, ← hvalue]
    apply mul_pos _ hpow
    linarith
  have hplace : LastPlace f r.toRat (x.exponent - 1) := by
    constructor
    · omega
    · rw [← hvalue, f.double_fractions_mul_zpow, sub_add_cancel]
      apply mul_lt_mul_of_pos_right hlow hpow
    · intro _
      rw [← hvalue, hhalve, ← mul_assoc]
      apply mul_le_mul_of_nonneg_right _ (zpow_pos two_pos _).le
      linarith
  have hround : halfEven (r.toRat * 2 ^ (-(x.exponent - 1))) = (2 * f.fractions : ℕ) := by
    apply halfEven_of_near
    rw [hdouble, abs_lt]
    push_cast
    constructor
    · linarith
    · linarith
  have hcarry : (x.exponent - f.leastExponent).toNat
      = (x.exponent - 1 - f.leastExponent).toNat + 1 := by omega
  have hmagnitude : x.magnitude
      = (x.exponent - 1 - f.leastExponent).toNat * f.fractions + 2 * f.fractions := by
    rw [x.magnitude_eq, hcarry, hpower]
    ring
  rw [nearest_of_lastPlace hr hplace hround, ← hmagnitude]
  apply Nat.min_eq_left
  exact (of_decide_eq_true hfinite : x.magnitude < f.infinity).le

/-- A ratio that is nearer to a number of the format than half the way to the numbers beside it is
rounded to it.  The number below a power of two is only half as far away. -/
theorem nearest_of_near (hfinite : x.isFinite = true) (hzero : x.magnitude ≠ 0)
    (hnear : |r.toRat - x.ratio.toRat| < 2 ^ x.exponent / 2)
    (hpower : x.significand = f.fractions → |r.toRat - x.ratio.toRat| < 2 ^ x.exponent / 4) :
  f.nearest r = x.magnitude
  := by
  have hpow := zpow_pos (two_pos (α := ℚ)) x.exponent
  have hsig : (1 : ℚ) ≤ x.significand := by
    exact_mod_cast Nat.one_le_iff_ne_zero.mpr (mt x.significand_eq_zero_iff.mp hzero)
  have hsiglt : (x.significand : ℚ) + 1 ≤ 2 * f.fractions := by exact_mod_cast x.significand_lt
  have hvalue := mul_zpow_neg_mul two_pos r.toRat x.exponent
  rw [toRat_ratio] at hnear hpower
  have hhalf := abs_sub_lt_of_mul_zpow two_pos hnear
  obtain ⟨hbelow, habove⟩ := abs_lt.mp hhalf
  by_cases hplace : f.leastExponent < x.exponent →
      (f.fractions : ℚ) ≤ r.toRat * 2 ^ (-x.exponent)
  · apply nearest_of_within hfinite _ _ hhalf
    · rw [← Ratio.toRat_pos_iff, ← hvalue]
      apply mul_pos _ hpow
      linarith
    · constructor
      · apply leastExponent_le_exponent
      · nth_rewrite 1 [← hvalue]
        apply mul_lt_mul_of_pos_right _ hpow
        linarith
      · intro hleast
        rw [← hvalue]
        apply mul_le_mul_of_nonneg_right (hplace hleast) hpow.le
  · rw [Classical.not_imp, not_le] at hplace
    obtain ⟨hleast, hlow⟩ := hplace
    have hsame : x.significand = f.fractions := by
      apply le_antisymm _ (x.fractions_le_significand hleast)
      have hlt : (x.significand : ℚ) < f.fractions + 1 := by linarith
      exact Nat.lt_succ_iff.mp (by exact_mod_cast hlt)
    have hquarter := abs_sub_lt_of_mul_zpow two_pos (hpower hsame)
    rw [hsame] at hquarter
    apply nearest_of_below hfinite hleast hsame hlow hquarter

/-! ### Wider formats -/

/-- What lies below the last power of two of a format but one is rounded to a finite number. -/
theorem nearest_lt_infinity (hr : 0 < r.num) (hbits : 2 ≤ f.exponentBits) {p : ℤ}
    (hp : p < (2 ^ (f.exponentBits - 1) : ℕ)) (h : r.toRat < 2 ^ p) :
  f.nearest r < f.infinity
  := by
  have hplace := f.lastPlace_lastExponent hr
  obtain ⟨-, hle⟩ := rounded_bounds (f := f) hr
  have hdouble : 2 ^ f.exponentBits = 2 * 2 ^ (f.exponentBits - 1) := by
    rw [← Nat.pow_succ', Nat.succ_eq_add_one, Nat.sub_add_cancel (Nat.le_of_lt hbits)]
  have hfour : 2 ^ 1 ≤ 2 ^ (f.exponentBits - 1) := Nat.pow_le_pow_right two_pos (by omega)
  have hbias : f.leastExponent = 2 - (2 ^ (f.exponentBits - 1) : ℕ) - f.fractionBits := rfl
  have hcount : (f.lastExponent r - f.leastExponent).toNat + 2 < 2 ^ f.exponentBits - 1 := by
    rw [hdouble]
    generalize 2 ^ (f.exponentBits - 1) = bias at hp hfour hbias
    obtain hleast | hleast := hplace.least_le.lt_or_eq
    · have hpow := (hplace.le hleast).trans_lt h
      rw [f.fractions_mul_zpow, zpow_lt_zpow_iff_right₀ one_lt_two] at hpow
      omega
    · omega
  rw [Format.nearest, if_neg hr.ne']
  apply Nat.lt_of_le_of_lt (Nat.min_le_left _ _)
  calc
    (f.lastExponent r - f.leastExponent).toNat * f.fractions
        + (r.scale2 (-f.lastExponent r)).nearest
      ≤ ((f.lastExponent r - f.leastExponent).toNat + 2) * f.fractions := by
        rw [Nat.add_mul]
        apply Nat.add_le_add_left hle
    _ < f.infinity := Nat.mul_lt_mul_of_pos_right hcount f.fractions_pos

end Binary

/-- Every finite number of one format is a number of another one, which has a wider range too. -/
structure Format.Widens (f g : Format) : Prop where
  fractionBits_le : f.fractionBits ≤ g.fractionBits
  leastExponent_le : g.leastExponent ≤ f.leastExponent
  exponentBits_lt : f.exponentBits < g.exponentBits
  one_le : 1 ≤ f.exponentBits

/-- The format of 64 bits is wider than that of 32 bits. -/
theorem Format.widens_single_double :
  Widens .single .double
  := by
  constructor
  · decide
  · decide
  · decide
  · decide

namespace Binary

variable {f g : Format} {x : Binary f}

/-- Conversion to its own format leaves a number as it is. -/
theorem convert_self (hfinite : x.isFinite = true) :
  (x.convert : Binary f) = x
  := by
  obtain ⟨hnan, hinfinite⟩ := x.isFinite_iff.mp hfinite
  rw [convert, hnan, hinfinite]
  apply nearest_eq_self
  apply x.nearest_ratio (of_decide_eq_true hfinite)

/-- Conversion to a wider format keeps a number. -/
theorem convert_exact (hwidens : Format.Widens f g) (hfinite : x.isFinite = true) :
  (x.convert : Binary g).isFinite = true ∧ (x.convert : Binary g).negative = x.negative
    ∧ (x.convert : Binary g).ratio.toRat = x.ratio.toRat
  := by
  have hconvert : (x.convert : Binary g) = nearest x.negative x.ratio := by
    obtain ⟨hnan, hinfinite⟩ := x.isFinite_iff.mp hfinite
    rw [convert, hnan, hinfinite]
    rfl
  rw [hconvert]
  by_cases hzero : x.magnitude = 0
  · have hnum : x.ratio.num = 0 := by
      have hiff := x.num_ratio_pos_iff
      omega
    have hmagnitude : (nearest x.negative x.ratio : Binary g).magnitude = 0 := by
      rw [magnitude_nearest, Format.nearest, if_pos hnum]
    refine ⟨?_, rfl, ?_⟩
    · apply decide_eq_true
      rw [hmagnitude]
      apply Format.infinity_pos (hwidens.one_le.trans hwidens.exponentBits_lt.le)
    · rw [toRat_ratio, toRat_ratio, (significand_eq_zero_iff _).mpr hmagnitude,
        (significand_eq_zero_iff _).mpr hzero, Nat.cast_zero, zero_mul, zero_mul]
  · have hr := x.num_ratio_pos_iff.mpr hzero
    have hbits : 2 ≤ g.exponentBits := hwidens.one_le.trans_lt hwidens.exponentBits_lt
    have hinfinity : g.nearest x.ratio < g.infinity := by
      apply nearest_lt_infinity hr hbits (p := (2 ^ (f.exponentBits - 1) : ℕ))
      · have hone := hwidens.one_le
        have hwider := hwidens.exponentBits_lt
        exact_mod_cast Nat.pow_lt_pow_right one_lt_two (by omega)
      · rw [zpow_natCast]
        apply x.toRat_ratio_lt hfinite
    have hplace := g.lastPlace_lastExponent hr
    have hlower : g.lastExponent x.ratio ≤ x.exponent := by
      obtain hleast | hleast := hplace.least_le.lt_or_eq
      · have hbounds := (hplace.le hleast).trans_lt x.lastPlace_ratio.lt
        have hwider := hwidens.fractionBits_le
        rw [f.double_fractions_mul_zpow, f.fractions_mul_zpow, g.fractions_mul_zpow,
          zpow_lt_zpow_iff_right₀ one_lt_two] at hbounds
        omega
      · rw [← hleast]
        apply hwidens.leastExponent_le.trans x.leastExponent_le_exponent
    obtain ⟨n, hn⟩ := x.exists_eq_intCast_mul hlower
    refine ⟨?_, rfl, ?_⟩
    · apply decide_eq_true
      rw [magnitude_nearest]
      apply hinfinity
    · rw [toRat_ratio_nearest hr hinfinity]
      nth_rewrite 1 [hn]
      rw [mul_zpow_mul_neg two_pos, halfEven_intCast, ← hn]

end Binary

end RenderKernel
