import Mathlib.Algebra.Order.Floor.Div
import RenderKernel.Code.Memory

/-!
# Whole pages

The bytes that are mapped for some code are its length, rounded up to whole pages by a mask of the
bits above those below the page size.  For page sizes up to `2 ^ 62` and lengths below `2 ^ 63` no
step of this leaves the 64 bits, and the result is the least number of bytes in whole pages that
holds the code (`reservation_isLeast`).
-/

namespace RenderKernel.Code

/-! ### Multiples -/

/-- The quotient that is rounded up counts the fewest pages with room for `n` bytes. -/
theorem isLeast_mul_ceilDiv {page : Nat} (hpage : 0 < page) (n : Nat) :
  IsLeast {size | page ∣ size ∧ n ≤ size} (page * (n ⌈/⌉ page))
  := by
  constructor
  · constructor
    · apply Nat.dvd_mul_right
    · apply le_smul_ceilDiv hpage
  · rintro size ⟨⟨count, rfl⟩, hn⟩
    apply Nat.mul_le_mul_left
    apply (ceilDiv_le_iff_le_smul hpage).mpr hn

theorem mul_ceilDiv_lt {page : Nat} (hpage : 0 < page) (n : Nat) :
  page * (n ⌈/⌉ page) < n + page
  := by
  have hle : page * ((n + page - 1) / page) ≤ n + page - 1 := Nat.mul_div_le _ _
  rw [Nat.ceilDiv_eq_add_pred_div]
  omega

/-! ### Words -/

variable {page length : UInt64} {k : Nat}

/-- Clearing the bits of a word below a power of two rounds it down to a multiple of that power. -/
theorem toNat_and_not_mask (n : UInt64) {mask : UInt64} (hmask : mask.toNat = 2 ^ k - 1) :
  (n &&& ~~~mask).toNat = 2 ^ k * (n.toNat / 2 ^ k)
  := by
  apply Nat.eq_of_testBit_eq
  intro i
  have hnot : (~~~mask).toNat.testBit i = (decide (i < 64) && !mask.toNat.testBit i) := by
    rw [← UInt64.toNat_toBitVec, UInt64.toBitVec_not, BitVec.testBit_toNat, BitVec.getLsbD_not]
    rfl
  have hhigh : 64 ≤ i → n.toNat.testBit i = false := by
    intro hi
    apply Nat.testBit_lt_two_pow
    apply n.toNat_lt.trans_le (Nat.pow_le_pow_right Nat.two_pos hi)
  rw [UInt64.toNat_and, Nat.testBit_and, hnot, hmask, Nat.testBit_two_pow_sub_one, Nat.mul_comm,
    Nat.testBit_mul_two_pow, Nat.testBit_div_two_pow]
  by_cases hi : k ≤ i
  · by_cases hwidth : i < 64
    · simp [hi, hwidth, Nat.not_lt.mpr hi]
    · simp [hi, hwidth, hhigh (Nat.not_lt.mp hwidth)]
  · simp [hi, Nat.lt_of_not_le hi]

/-- The predecessor of a word other than zero is exact. -/
theorem toNat_sub_one {n : UInt64} (h : 0 < n.toNat) :
  (n - 1).toNat = n.toNat - 1
  := by
  apply UInt64.toNat_sub_of_le
  apply UInt64.le_iff_toNat_le.mpr
  apply h

/-- What is mapped for a code is the fewest whole pages, as many as the length over the page size,
rounded up. -/
theorem toNat_reservation (hpage : page.toNat = 2 ^ k)
    (hsum : (length + page).toNat = length.toNat + page.toNat) :
  (reservation page length).toNat = page.toNat * (length.toNat ⌈/⌉ page.toNat)
  := by
  have hpos : 0 < page.toNat := by
    rw [hpage]
    apply Nat.two_pow_pos
  have hmask : (page - 1).toNat = 2 ^ k - 1 := by
    rw [toNat_sub_one hpos, hpage]
  have hlast : (length + page - 1).toNat = length.toNat + page.toNat - 1 := by
    rw [toNat_sub_one (hsum ▸ Nat.add_pos_right _ hpos), hsum]
  rw [reservation, toNat_and_not_mask _ hmask, hlast, Nat.ceilDiv_eq_add_pred_div, hpage]

/-- For a page size that is a power of two and a length that code can have, no step of the rounding
leaves the 64 bits, and what is mapped is the least multiple of the page size that holds the code:
at least one page, and less than a page too much. -/
theorem reservation_isLeast (hk : k ≤ 62) (hpage : page.toNat = 2 ^ k) (hpos : 1 ≤ length.toNat)
    (hlength : length.toNat ≤ 2 ^ 63 - 1) :
  (length + page).toNat = length.toNat + page.toNat
    ∧ (length + page - 1).toNat = length.toNat + page.toNat - 1
    ∧ (page - 1).toNat = page.toNat - 1
    ∧ IsLeast {size | page.toNat ∣ size ∧ length.toNat ≤ size} (reservation page length).toNat
    ∧ 0 < (reservation page length).toNat
    ∧ (reservation page length).toNat < length.toNat + page.toNat
  := by
  have hpage_pos : 0 < page.toNat := by
    rw [hpage]
    apply Nat.two_pow_pos
  have hpage_le : page.toNat ≤ 2 ^ 62 := by
    rw [hpage]
    apply Nat.pow_le_pow_right Nat.two_pos hk
  have hsum : (length + page).toNat = length.toNat + page.toNat := by
    rw [UInt64.toNat_add]
    apply Nat.mod_eq_of_lt
    omega
  have hleast := isLeast_mul_ceilDiv hpage_pos length.toNat
  have hlt := mul_ceilDiv_lt hpage_pos length.toNat
  rw [← toNat_reservation hpage hsum] at hleast hlt
  use hsum, hsum ▸ toNat_sub_one (hsum ▸ Nat.add_pos_right _ hpage_pos), toNat_sub_one hpage_pos,
    hleast, hpos.trans hleast.1.2

/-- The longest code is followed by a single byte on its last page. -/
theorem reservation_isLeast_longest :
  12 ≤ 62 ∧ pageSize.toNat = 2 ^ 12 ∧ 1 ≤ (9223372036854775807 : UInt64).toNat
    ∧ (9223372036854775807 : UInt64).toNat ≤ 2 ^ 63 - 1
    ∧ (reservation pageSize 9223372036854775807).toNat = 9223372036854775808
    ∧ IsLeast {size | pageSize.toNat ∣ size ∧ (9223372036854775807 : UInt64).toNat ≤ size}
      (reservation pageSize 9223372036854775807).toNat
  := by
  have hpage : pageSize.toNat = 2 ^ 12 := rfl
  have hlength : (9223372036854775807 : UInt64).toNat ≤ 2 ^ 63 - 1 := by decide
  obtain ⟨-, -, -, hleast, -⟩ := reservation_isLeast (by decide) hpage (by decide) hlength
  exact ⟨by decide, hpage, by decide, hlength, rfl, hleast⟩

end RenderKernel.Code
