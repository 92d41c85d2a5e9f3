import Mathlib.Algebra.Order.Ring.Int
import RenderKernel.Number.Integer

/-!
# Bounds of integers

The bounds of the kinds of integers in use, as numbers, and when an exact result fits between the
bounds of its kind.
-/

namespace RenderKernel

namespace IntegerKind

/-- What at most 64 bits hold is held by 64 bits, with a sign or without one. -/
theorem bounds_of_bits_le {k : IntegerKind} (hbits : k.bits ≤ 64) :
  -2 ^ 63 ≤ k.least ∧ k.greatest < 2 ^ 64
  := by
  have hwhole : Nat.pow 2 k.bits ≤ 2 ^ 64 := Nat.pow_le_pow_right Nat.two_pos hbits
  have hhalf : Nat.pow 2 (k.bits - 1) ≤ 2 ^ 63 := Nat.pow_le_pow_right Nat.two_pos (by omega)
  rw [least, greatest]
  cases k.signed with
  | true =>
      simp only [if_true]
      omega
  | false =>
      simp only [Bool.false_eq_true, if_false]
      omega

theorem bounds_signed32 :
  signed32.least = -2147483648 ∧ signed32.greatest = 2147483647
  := by decide

theorem patterns_signed32 :
  signed32.greatest - signed32.least < Nat.pow 2 signed32.bits
  := by decide

/-- The least integer of a kind without signs is zero. -/
theorem least_of_unsigned {k : IntegerKind} (h : k.signed = false) :
  k.least = 0
  := if_neg (ne_true_of_eq_false h)

/-- With a sign, only the least integer is without an opposite. -/
theorem least_of_signed {k : IntegerKind} (h : k.signed = true) :
  k.least = -(k.greatest + 1)
  := by
  rw [least, greatest, if_pos h, if_pos h]
  omega

/-- A kind holds the integers between its bounds. -/
theorem holds_iff {k : IntegerKind} {n : Int} :
  k.holds n ↔ k.least ≤ n ∧ n ≤ k.greatest
  := by
  rw [holds, Bool.and_eq_true, decide_eq_true_eq, decide_eq_true_eq]

theorem holds_zero (k : IntegerKind) :
  k.holds 0
  := holds_iff.mpr ⟨k.least_le_zero, k.zero_le_greatest⟩

/-- An integer between zero and one that lies between the bounds lies between the bounds. -/
theorem holds_of_between {k : IntegerKind} {n m : Int} (h : k.holds n)
    (hm : 0 ≤ m ∧ m ≤ n ∨ n ≤ m ∧ m ≤ 0) :
  k.holds m
  := by
  obtain ⟨hleast, hgreatest⟩ := holds_iff.mp h
  have hzero := k.least_le_zero
  have hzero' := k.zero_le_greatest
  apply holds_iff.mpr
  omega

/-- The opposite of a number is held unless the number is the least one. -/
theorem holds_neg_iff {k : IntegerKind} {n : Int} (hk : k.signed = true) (h : k.holds n) :
  k.holds (-n) ↔ n ≠ k.least
  := by
  have hbounds := least_of_signed hk
  rw [holds_iff] at h ⊢
  omega

/-- Only kinds with signs hold negative integers. -/
theorem signed_of_holds_neg {k : IntegerKind} {n : Int} (hneg : n < 0) (h : k.holds n) :
  k.signed = true
  := by
  by_contra hk
  have hleast := (holds_iff.mp h).1
  rw [least_of_unsigned (Bool.eq_false_of_not_eq_true hk)] at hleast
  omega

/-- Quotients by numbers that are not negative go toward zero. -/
theorem holds_tdiv_of_nonneg {k : IntegerKind} {n s : Int} (hn : k.holds n) (hs : 0 ≤ s) :
  k.holds (n.tdiv s)
  := by
  apply holds_of_between hn
  obtain hpos | hneg := Int.le_total 0 n
  · exact .inl ⟨Int.tdiv_nonneg hpos hs, Int.tdiv_le_self s hpos⟩
  · have hopposite : n.tdiv s = -(-n).tdiv s := by rw [Int.neg_tdiv, Int.neg_neg]
    have hnonneg := Int.tdiv_nonneg (Int.neg_nonneg_of_nonpos hneg) hs
    have hle := Int.tdiv_le_self s (Int.neg_nonneg_of_nonpos hneg)
    omega

/-- Quotients by negative numbers below minus one have at most half the size. -/
theorem holds_tdiv_of_lt_neg_one {k : IntegerKind} {n s : Int} (hn : k.holds n) (hs : k.holds s)
    (hlt : s < -1) :
  k.holds (n.tdiv s)
  := by
  have hbounds := least_of_signed (signed_of_holds_neg (by omega) hs)
  have hhalf : (n.tdiv s).natAbs ≤ n.natAbs / 2 := by
    rw [Int.natAbs_tdiv]
    apply Nat.div_le_div_left (by omega) Nat.two_pos
  have hzero := k.zero_le_greatest
  rw [holds_iff] at hn ⊢
  omega

/-- A quotient lies between the bounds, unless it is the opposite of the least integer. -/
theorem holds_tdiv_iff {k : IntegerKind} {n s : Int} (hn : k.holds n) (hs : k.holds s) :
  k.holds (n.tdiv s) ↔ ¬ (s = -1 ∧ n = k.least)
  := by
  obtain hlt | rfl | hnonneg : s < -1 ∨ s = -1 ∨ 0 ≤ s := by omega
  · apply iff_of_true (holds_tdiv_of_lt_neg_one hn hs hlt)
    omega
  · rw [Int.tdiv_neg, Int.tdiv_one, holds_neg_iff (signed_of_holds_neg (by omega) hs) hn]
    omega
  · apply iff_of_true (holds_tdiv_of_nonneg hn hnonneg)
    omega

end IntegerKind

namespace Bounded

variable {k : IntegerKind} {n : Int}

theorem eq_of_val_eq {x y : Bounded k} (h : x.val = y.val) :
  x = y
  := by
  cases x
  cases y
  cases h
  rfl

/-- The result of an operation that the kind holds is given. -/
theorem fit_of_holds (operation : IntegerOperation) (h : k.holds n) :
  ∃ x : Bounded k, fit operation n = .ok x ∧ x.val = n
  := by
  obtain ⟨hleast, hgreatest⟩ := IntegerKind.holds_iff.mp h
  use ⟨n, hleast, hgreatest⟩, fit_of_bounds operation hleast hgreatest

/-- The result of an operation that the kind does not hold is a fault of this operation. -/
theorem fit_of_not_holds (operation : IntegerOperation) (h : ¬ k.holds n) :
  (fit operation n : Checked k) = .error (.overflow operation)
  := dif_neg (mt IntegerKind.holds_iff.mpr h)

theorem holds_val (x : Bounded k) :
  k.holds x.val
  := IntegerKind.holds_iff.mpr ⟨x.least_le, x.le_greatest⟩

/-- An operation gives an integer exactly if this is its exact result. -/
theorem fit_eq_ok_iff {operation : IntegerOperation} {x : Bounded k} :
  fit operation n = .ok x ↔ x.val = n
  := by
  constructor
  · intro h
    by_cases hn : k.holds n
    · obtain ⟨y, hy, hval⟩ := fit_of_holds operation hn
      cases hy.symm.trans h
      apply hval
    · cases (fit_of_not_holds operation hn).symm.trans h
  · rintro rfl
    apply fit_of_bounds operation x.least_le x.le_greatest

/-- An operation overflows exactly if the kind does not hold its exact result. -/
theorem fit_eq_error_iff {operation : IntegerOperation} {fault : ArithmeticFault} :
  (fit operation n : Checked k) = .error fault ↔ ¬ k.holds n ∧ fault = .overflow operation
  := by
  constructor
  · intro h
    by_cases hn : k.holds n
    · obtain ⟨y, hy, -⟩ := fit_of_holds operation hn
      cases hy.symm.trans h
    · cases (fit_of_not_holds operation hn).symm.trans h
      use hn
  · rintro ⟨hn, rfl⟩
    apply fit_of_not_holds operation hn

/-- An operation succeeds exactly if the kind holds its exact result. -/
theorem exists_fit_eq_ok_iff {operation : IntegerOperation} :
  (∃ x : Bounded k, fit operation n = .ok x) ↔ k.holds n
  := by
  constructor
  · rintro ⟨x, hx⟩
    rw [← fit_eq_ok_iff.mp hx]
    apply x.holds_val
  · intro h
    obtain ⟨x, hx, -⟩ := fit_of_holds operation h
    use x

end Bounded

namespace Checked

variable {k : IntegerKind}

/-- Integers are divided with the quotient rounded towards zero. -/
theorem ok_div_ok {x s : Bounded k} (hs : s.val ≠ 0) :
  (.ok x / .ok s : Checked k) = Bounded.fit .divide (x.val.tdiv s.val)
  := if_neg hs

theorem ok_div_zero (x : Bounded k) {s : Bounded k} (hs : s.val = 0) :
  (.ok x / .ok s : Checked k) = .error .divisionByZero
  := if_pos hs

end Checked

end RenderKernel
