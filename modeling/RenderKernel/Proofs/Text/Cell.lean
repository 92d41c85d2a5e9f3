import RenderKernel.Proofs.Decimal.Places
import RenderKernel.Proofs.Text.Block

/-!
# What stands in a cell

The text of a number is short however many digits are asked for, since a number of 64 bits has no more
than 767 significant digits: it is an integer over a power of ten, and the integer is a significand
times a power of five (`Binary.toRat_ratio_mul_pow`).  It is made of letters, digits, signs and points,
so that it cannot be confused with what stands between cells (`Block.IsCell`).

So the width of a block is never beyond the greatest one that can be asked for, and the text of a grid
is refused exactly if that of an entry is (`Grid.blockText_refused_iff`).
-/

namespace RenderKernel

open Decimal Significant

/-! ### Digits of binary numbers -/

namespace Binary

/-- A fraction of a power of two is an integer over the same power of ten. -/
theorem toRat_ratio_mul_pow {f : Format} (x : Binary f) {k : Nat} (h : x.exponent = -k) :
  x.ratio.toRat * 10 ^ k = (x.significand * 5 ^ k : ℕ)
  := by
  have hten : (10 : ℚ) ^ k = 2 ^ (k : ℤ) * 5 ^ k := by
    rw [zpow_natCast, ← mul_pow]
    norm_num
  rw [toRat_ratio, h, hten, ← mul_assoc, mul_zpow_neg_mul two_pos]
  push_cast
  rfl

variable {x : Binary .double} {digits : Nat}

/-- A finite number of 64 bits has no more than 767 digits, those behind the point included. -/
theorem exists_places (hfinite : x.isFinite = true) :
  ∃ k : Nat, HasPlaces k x.ratio.toRat ∧ x.ratio.toRat * 10 ^ k < 10 ^ 767
  := by
  obtain ⟨k, hk | hk⟩ := Int.eq_nat_or_neg x.exponent
  · use 0
    rw [HasPlaces, pow_zero, mul_one]
    constructor
    · use x.significand * 2 ^ k
      rw [toRat_ratio, hk, zpow_natCast]
      push_cast
      rfl
    · have hpower : 2 ^ (2 ^ (Format.double.exponentBits - 1)) < 10 ^ 767 := by decide +kernel
      apply (x.toRat_ratio_lt hfinite).trans
      exact_mod_cast hpower
  · use k
    rw [HasPlaces, x.toRat_ratio_mul_pow hk]
    constructor
    · use x.significand * 5 ^ k
    · have hleast : Format.double.leastExponent = -1074 := by decide
      have hexponent := x.leastExponent_le_exponent
      have hk : k ≤ 1074 := by omega
      have hpower : 5 ^ k ≤ 5 ^ 1074 := pow_le_pow_right₀ (by decide) hk
      have hbound : x.significand * 5 ^ k < 10 ^ 767 := by
        calc
          x.significand * 5 ^ k
          _ < 2 * Format.double.fractions * 5 ^ 1074 :=
            Nat.mul_lt_mul_of_lt_of_le x.significand_lt hpower (pow_pos (by decide) _)
          _ < 10 ^ 767 := by decide +kernel
      exact_mod_cast hbound

/-- Rounded to significant digits it still has no more than 767 of them, and one place before them. -/
theorem exists_places_roundedTo (hfinite : x.isFinite = true) (hzero : x.isZero = false)
    (hdigits : 0 < digits) :
  ∃ k : Nat, HasPlaces k (roundedTo digits x.ratio.toRat)
    ∧ Int.log 10 (roundedTo digits x.ratio.toRat) + k ≤ 767
  := by
  have hpos := Ratio.toRat_pos_iff.mpr (x.num_ratio_pos_iff.mpr (ne_of_beq_false hzero))
  obtain ⟨k, hplaces, hlt⟩ := exists_places hfinite
  have hlog := log_add_lt hpos hlt
  obtain ⟨-, hcarry⟩ := log_roundedTo_bounds hdigits hpos
  exact ⟨k, hplaces.roundedTo digits hpos.le, by omega⟩

end Binary

/-! ### Characters and lengths -/

namespace Block

/-- Letters, digits, signs and the point. -/
def isCellChar (c : Char) : Bool := c.isAlphanum || c == '-' || c == '+' || c == '.'

/-- The text can stand in a cell: no character in it is a blank or separates cells, and it is short. -/
structure IsCell (cs : List Char) : Prop where
  chars : ∀ c ∈ cs, isCellChar c = true
  length_le : cs.length ≤ 800

theorem IsCell.not_mem {cs : List Char} (h : IsCell cs) {c : Char} (hc : isCellChar c = false) :
  c ∉ cs
  := by
  intro hmem
  rw [h.chars c hmem] at hc
  cases hc

theorem isCellChar_of_isDigit {c : Char} (h : c.isDigit = true) :
  isCellChar c = true
  := by
  rw [isCellChar, Char.isAlphanum, h]
  simp only [Bool.or_true, Bool.true_or]

end Block

open Block

namespace Decimal

variable {q : ℚ} {e : ℤ} {cs : List Char}

theorem Digits.isCellChar (h : Digits cs) :
  ∀ c ∈ cs, isCellChar c = true
  := fun c hc => isCellChar_of_isDigit (h c hc)

theorem IsPlain.isCellChar (h : IsPlain q cs) :
  ∀ c ∈ cs, isCellChar c = true
  := by
  obtain ⟨whole, fraction, hconcise, -, rfl⟩ := h
  obtain rfl | hne := eq_or_ne fraction []
  · exact hconcise.digits_whole.isCellChar
  · rw [pointed_of_ne_nil whole hne]
    intro c hc
    rw [List.mem_append, List.mem_cons] at hc
    obtain hwhole | rfl | hfraction := hc
    · exact hconcise.digits_whole.isCellChar c hwhole
    · rfl
    · exact hconcise.digits_fraction.isCellChar c hfraction

theorem IsScientific.isCellChar (h : IsScientific q e cs) :
  ∀ c ∈ cs, isCellChar c = true
  := by
  obtain ⟨m, mantissa, ds, hplain, -, -, -, hexponent, rfl⟩ := h
  intro c hc
  rw [List.mem_append, List.mem_cons, List.mem_cons] at hc
  obtain hmantissa | rfl | rfl | hds := hc
  · exact hplain.isCellChar c hmantissa
  · rfl
  · split
    · rfl
    · rfl
  · exact hexponent.digits.isCellChar c hds

end Decimal

namespace Significant

variable {digits k : Nat} {q : ℚ} {cs : List Char}

theorem IsNumeral.isCellChar (h : IsNumeral digits q cs) :
  ∀ c ∈ cs, isCellChar c = true
  := by
  rw [IsNumeral] at h
  split at h
  · exact h.isCellChar
  · exact h.isCellChar

/-- A plain numeral has a few zeros before its first digit, a scientific one an exponent behind its
last one. -/
theorem IsNumeral.length_le (h : IsNumeral digits q cs) (hq : 0 < q) (hk : HasPlaces k q) :
  (cs.length : ℤ) ≤ Int.log 10 q + k + 4 + max 2 (digitCount (Int.log 10 q).natAbs)
  := by
  have hreach := hk.log_add_nonneg hq
  rw [IsNumeral] at h
  split at h
  · have hlength := h.length_le hk
    omega
  · have hlength := h.length_le hk hreach
    omega

/-- A sign is one more character. -/
theorem isCell_signed {negative : Bool} (hchars : ∀ c ∈ cs, isCellChar c = true)
    (hlength : cs.length < 800) :
  IsCell (signed negative cs)
  := by
  cases negative with
  | false => exact ⟨hchars, hlength.le⟩
  | true =>
      constructor
      · intro c hc
        obtain rfl | hmem := List.mem_cons.mp hc
        · rfl
        · exact hchars c hmem
      · exact hlength

end Significant

namespace Binary

variable {x : Binary .double} {digits : Nat} {cs : List Char}

theorem digitCount_shownExponent_le (digits : Nat) (hfinite : x.isFinite = true)
    (hzero : x.isZero = false) :
  digitCount (x.shownExponent digits).natAbs ≤ 4
  := by
  obtain ⟨hlow, hhigh⟩ := exponent_bounds hfinite hzero (Nat.le_max_right digits 1)
  rw [roundSignificant_ratio hzero] at hlow hhigh
  apply digitCount_le (by decide)
  omega

/-- The text of a number is short, however many digits are asked for. -/
theorem isCell_shownText (h : x.shownText digits = .ok cs) :
  IsCell cs
  := by
  rw [shownText_eq] at h
  have hdigits : 0 < max digits 1 := Nat.le_max_right _ _
  cases hnan : x.isNaN with
  | true =>
      rw [significantText, hnan] at h
      cases h
      exact ⟨List.all_eq_true.mp rfl, by decide⟩
  | false =>
      cases hinfinite : x.isInfinite with
      | true =>
          rw [significantText, hnan, hinfinite] at h
          cases h
          exact isCell_signed (List.all_eq_true.mp rfl) (by decide)
      | false =>
          have hfinite := x.isFinite_iff.mpr ⟨hnan, hinfinite⟩
          cases hzero : x.isZero with
          | true =>
              rw [significantText_of_isZero hfinite hzero] at h
              cases h
              exact isCell_signed (List.all_eq_true.mp rfl) (by decide)
          | false =>
              obtain ⟨numeral, hnumeral, rfl⟩ := exists_numeral hfinite hzero h
              apply isCell_signed hnumeral.isCellChar
              have hpos := Ratio.toRat_pos_iff.mpr (x.num_ratio_pos_iff.mpr (ne_of_beq_false hzero))
              obtain ⟨k, hplaces, hlog⟩ := exists_places_roundedTo hfinite hzero hdigits
              have hlength := hnumeral.length_le (roundedTo_pos hdigits hpos) hplaces
              have hexponent := digitCount_shownExponent_le digits hfinite hzero
              rw [shownExponent, x.abs_toRat] at hexponent
              omega

end Binary

/-! ### Numbers of geometry -/

namespace Bounded

variable {k : IntegerKind}

/-- The text of an integer of at most 64 bits has a sign and twenty digits at most. -/
theorem isCell_digits (hbits : k.bits ≤ 64) (x : Bounded k) :
  IsCell x.digits
  := by
  obtain ⟨hleast, hgreatest⟩ := IntegerKind.bounds_of_bits_le hbits
  apply isCell_signed (digits_plain _).isCellChar
  rw [length_plain]
  have hcount : digitCount x.val.natAbs ≤ 20 := by
    apply digitCount_le (by decide)
    have := x.least_le
    have := x.le_greatest
    omega
  omega

end Bounded

namespace Legible

/-- The numbers that the components of geometric quantities are: floating-point numbers, and integers
of at most 64 bits. -/
inductive IsScalar : (V : Type) → [Legible V] → Prop
  | binary (f : Format) : IsScalar (Binary f)
  | integer (k : IntegerKind) : k.bits ≤ 64 → IsScalar (Bounded k)

variable {V : Type} [Legible V] {digits : Nat} {x : V}

theorem IsScalar.isCell (hV : IsScalar V) {cs : List Char} (h : significantText digits x = .ok cs) :
  IsCell cs
  := by
  cases hV with
  | binary f => exact Binary.isCell_shownText h
  | integer k hbits =>
      cases h
      exact Bounded.isCell_digits hbits x

end Legible

/-! ### The width of a block -/

namespace Block

variable {lines : List (List (List Char))} {line : List (List Char)} {cs : List Char}

/-- The width is the greatest of the lengths, and zero without cells. -/
theorem width_spec (lines : List (List (List Char))) :
  width lines ∈ 0 :: lines.flatten.map List.length
    ∧ ∀ n ∈ 0 :: lines.flatten.map List.length, n ≤ width lines
  := List.max?_eq_some_iff.mp rfl

theorem length_le_width (hline : line ∈ lines) (hcs : cs ∈ line) :
  cs.length ≤ width lines
  := by
  apply (width_spec lines).2
  apply List.mem_cons_of_mem
  exact List.mem_map_of_mem (List.mem_flatten_of_mem hline hcs)

/-- The width is the length of a cell, if there is one. -/
theorem exists_length_eq_width (hline : line ∈ lines) (hcs : cs ∈ line) :
  ∃ line ∈ lines, ∃ cs ∈ line, cs.length = width lines
  := by
  obtain hzero | hmem := List.mem_cons.mp (width_spec lines).1
  · have hle := length_le_width hline hcs
    exact ⟨line, hline, cs, hcs, by omega⟩
  · obtain ⟨cs, hcs, hlength⟩ := List.mem_map.mp hmem
    obtain ⟨line, hline, hcs⟩ := List.mem_flatten.mp hcs
    exact ⟨line, hline, cs, hcs, hlength⟩

theorem width_le (h : ∀ line ∈ lines, ∀ cs ∈ line, IsCell cs) :
  width lines ≤ 800
  := by
  obtain hzero | hmem := List.mem_cons.mp (width_spec lines).1
  · omega
  · obtain ⟨cs, hcs, hlength⟩ := List.mem_map.mp hmem
    obtain ⟨line, hline, hcs⟩ := List.mem_flatten.mp hcs
    rw [← hlength]
    exact (h line hline cs hcs).length_le

theorem aligned_eq (h : width lines ≤ maxPrecision) :
  aligned lines = .ok (filled (width lines) lines)
  := by
  rw [aligned]
  split
  · rename_i hempty
    have hwidth : width lines = 0 := by
      rw [width, List.isEmpty_iff.mp hempty]
      rfl
    rw [hwidth, filled_zero]
    rfl
  · simp only [checkPrecision_of_le h]
    rfl

end Block

namespace Grid

variable {V : Type} [Legible V] {rows cols digits : Nat} {texts : List (List (List Char))}

/-- All entries have texts, or the cells are refused with an entry. -/
theorem cells_cases (digits : Nat) (g : Grid V rows cols) :
  (∃ texts, g.cells digits = .ok texts)
    ∨ ∃ (i : Fin rows) (j : Fin cols) (fault : FormatFault),
      Legible.significantText digits (g.entry i j) = .error fault ∧ g.cells digits = .error fault
  := by
  obtain hok | ⟨row, hrow, fault, hfault, herror⟩ := mapM_cases
    (fun row : Vector V cols => row.toList.mapM (Legible.significantText digits)) g.entries.toList
  · exact .inl hok
  · obtain ⟨line, hline⟩ | ⟨x, hx, fault', hfault', herror'⟩ :=
      mapM_cases (Legible.significantText digits) row.toList
    · cases hfault.symm.trans hline
    · cases hfault.symm.trans herror'
      obtain ⟨i, j, rfl⟩ := exists_entry hrow hx
      exact .inr ⟨i, j, fault, hfault', herror⟩

theorem exists_cells (g : Grid V rows cols)
    (h : ∀ i j, ∃ cs, Legible.significantText digits (g.entry i j) = .ok cs) :
  ∃ texts, g.cells digits = .ok texts
  := by
  obtain hok | ⟨i, j, fault, hfault, -⟩ := g.cells_cases digits
  · exact hok
  · obtain ⟨cs, hcs⟩ := h i j
    cases hcs.symm.trans hfault

theorem isCell_of_mem_cells (hV : Legible.IsScalar V) {g : Grid V rows cols}
    (h : g.cells digits = .ok texts) :
  ∀ line ∈ texts, ∀ cs ∈ line, Block.IsCell cs
  := by
  intro line hline cs hcs
  obtain ⟨i, j, htext⟩ := exists_entry_of_mem_cells h hline hcs
  exact hV.isCell htext

/-- If all entries have texts, nothing is refused. -/
theorem blockText_of_cells (hV : Legible.IsScalar V) {g : Grid V rows cols}
    (h : g.cells digits = .ok texts) :
  g.blockText digits = .ok (Block.bracketed
    (if cols = 1 then [texts.flatten] else Block.filled (Block.width texts) texts))
  := by
  have hwidth : Block.width texts ≤ maxPrecision :=
    (Block.width_le (isCell_of_mem_cells hV h)).trans (by decide)
  rw [blockText_eq, printed, h]
  by_cases hcols : cols = 1
  · simp only [if_pos hcols]
    rfl
  · simp only [if_neg hcols]
    change (Block.aligned texts).map _ = _
    rw [Block.aligned_eq hwidth]
    rfl

/-- A grid is refused exactly if the text of one of its entries is.  No block is too wide, because the
texts of numbers are short however many digits are asked for, and grids of integers are never
refused. -/
theorem blockText_refused_iff :
  (∀ (V : Type) [Legible V], Legible.IsScalar V →
      ∀ (rows cols digits : Nat) (g : Grid V rows cols),
        ((∃ fault, g.blockText digits = .error fault)
            ↔ ∃ (i : Fin rows) (j : Fin cols) (fault : FormatFault),
              Legible.significantText digits (g.entry i j) = .error fault)
          ∧ ∀ texts, g.cells digits = .ok texts → Block.width texts ≤ 65535)
    ∧ (∀ (k : IntegerKind) (rows cols digits : Nat) (g : Grid (Bounded k) rows cols), k.bits ≤ 64 →
        ∃ text, g.blockText digits = .ok text)
    ∧ ∀ (x : Binary .double) (digits : Nat) (cs : List Char), x.shownText digits = .ok cs →
        cs.length ≤ 800
  := by
  refine ⟨?_, ?_, ?_⟩
  · intro V _ hV rows cols digits g
    refine ⟨⟨?_, ?_⟩, ?_⟩
    · rintro ⟨fault, hfault⟩
      obtain ⟨texts, htexts⟩ | ⟨i, j, fault', hfault', -⟩ := g.cells_cases digits
      · cases (blockText_of_cells hV htexts).symm.trans hfault
      · exact ⟨i, j, fault', hfault'⟩
    · rintro ⟨i, j, fault, hfault⟩
      obtain ⟨texts, htexts⟩ | ⟨-, -, fault', -, herror⟩ := g.cells_cases digits
      · obtain ⟨cs, hcs, -⟩ := cell_cells htexts i j
        cases hcs.symm.trans hfault
      · use fault'
        rw [blockText, herror]
        rfl
    · intro texts htexts
      exact (Block.width_le (isCell_of_mem_cells hV htexts)).trans (by decide)
  · intro k rows cols digits g hbits
    have hentry : ∀ i j, ∃ cs, Legible.significantText digits (g.entry i j) = .ok cs :=
      fun i j => ⟨(g.entry i j).digits, rfl⟩
    obtain ⟨texts, htexts⟩ := g.exists_cells hentry
    exact ⟨_, blockText_of_cells (.integer k hbits) htexts⟩
  · intro x digits cs h
    exact (Binary.isCell_shownText h).length_le

/-- The least positive number is refused with too many digits.  With 800 digits it is shown, and all of
its digits are. -/
theorem blockText_refused_leastPositive :
  let x : Binary .double := .ofBits 1
  let g : Grid (Binary .double) 1 2 := ⟨#v[#v[.ofBits 0x3ff0000000000000, x]]⟩
  let texts : List (List (List Char)) := [[['1'], "4.9406564584124654e-324".toList]]
  let bounds : Grid (Bounded .signed64) 2 1 :=
    ⟨#v[#v[⟨-2 ^ 63, by decide, by decide⟩], #v[⟨2 ^ 63 - 1, by decide, by decide⟩]]⟩
  Legible.IsScalar (Binary .double)
    ∧ (∃ fault, g.blockText 70000 = .error fault)
    ∧ g.cells 17 = .ok texts ∧ Block.width texts ≤ 65535
    ∧ IntegerKind.signed64.bits ≤ 64 ∧ (∃ text, bounds.blockText 70000 = .ok text)
    ∧ ∃ cs, x.shownText 800 = .ok cs ∧ cs.length = 757 ∧ cs.length ≤ 800
  := by
  intro x g texts bounds
  obtain ⟨hblock, hintegers, hlength⟩ := blockText_refused_iff
  have hscalar : Legible.IsScalar (Binary .double) := .binary .double
  have hrefused : Legible.significantText 70000 (g.entry 0 1) = .error .precisionOutOfRange := by
    decide +kernel
  have htexts : g.cells 17 = .ok texts := by decide +kernel
  have hdigits : (x.shownText 800).map List.length = .ok 757 := by decide +kernel
  refine ⟨hscalar, (hblock _ hscalar 1 2 70000 g).1.mpr ⟨0, 1, _, hrefused⟩, htexts,
    (hblock _ hscalar 1 2 17 g).2 texts htexts, by decide, hintegers _ 2 1 70000 bounds (by decide), ?_⟩
  cases hshown : x.shownText 800 with
  | error fault =>
      rw [hshown] at hdigits
      cases hdigits
  | ok cs =>
      rw [hshown] at hdigits
      exact ⟨cs, rfl, Except.ok.inj hdigits, hlength x 800 cs hshown⟩

end Grid

end RenderKernel
