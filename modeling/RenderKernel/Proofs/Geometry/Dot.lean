import RenderKernel.Proofs.Geometry.Components
import RenderKernel.Proofs.Number.Accumulation

/-!
# Dot products of bounded integers

A dot product that is computed between the bounds of a kind of integers is the accumulation of the
exact products of the components (`Vec.dot_lift`).  So it succeeds exactly if every product and every
sum of the first products lies between the bounds, it has the fault of the first one that does not,
and it does not matter which vector comes first.

The pairing of a normal with a vector leaves out the zero that a dot product starts from, which no
result and no fault depends on (`Normal.dotVec_eq_dot_checked`).
-/

namespace RenderKernel

namespace Vec

variable {k : IntegerKind} {n : Nat}

/-- The exact product of the components with a number. -/
def product (a b : Vec (Bounded k) n) (i : Fin n) : Int :=
  (a.components.get i).val * (b.components.get i).val

theorem product_comm (a b : Vec (Bounded k) n) :
  a.product b = b.product a
  := by
  funext i
  apply mul_comm

theorem product_nonneg (hk : k.signed = false) (a b : Vec (Bounded k) n) (i : Fin n) :
  0 ≤ a.product b i
  := by
  have hval (x : Bounded k) : 0 ≤ x.val := by
    rw [← IntegerKind.least_of_unsigned hk]
    apply x.least_le
  apply mul_nonneg (hval _) (hval _)

theorem dot_lift (a b : Vec (Bounded k) n) :
  (a.lift.dot b.lift : Checked k) = Checked.total (a.product b)
  := by
  have hget (a : Vec (Bounded k) n) (i : Fin n) :
      (a.lift : Vec (Checked k) n).components.get i = .ok (a.components.get i) :=
    Column.get_map _ _ i
  rw [dot, Column.dot_eq_foldl, Checked.total]
  simp only [hget, Checked.ok_mul_ok, product]

end Vec

theorem Normal.dotVec_eq_dot_checked {k : IntegerKind} (m : Normal (Checked k))
    (a : Vec (Checked k) 3) :
  m.dotVec a = m.toVec.dot a
  := by
  rw [Vec.dot_three_from_zero, Checked.zero_add]
  rfl

/-- A dot product between bounds succeeds exactly if every product and every sum of the first
products lies between the bounds, and is exact then; otherwise it has the fault of the first of
these numbers that does not.  So it does not matter which vector comes first, and without a sign the
exact dot product decides alone.  The pairing of a normal with a vector is the dot product of their
components, faults included. -/
theorem dot_between_bounds (k : IntegerKind) :
  (∀ (n : Nat) (a b : Vec (Bounded k) n),
      ((∃ x, (a.lift.dot b.lift : Checked k) = .ok x)
          ↔ ∀ i, k.holds (a.product b i) ∧ k.holds (∑ j ≤ i, a.product b j))
        ∧ (∀ x, (a.lift.dot b.lift : Checked k) = .ok x → x.val = ∑ i, a.product b i)
        ∧ (∀ fault, (a.lift.dot b.lift : Checked k) = .error fault
          ↔ ∃ i, (∀ j < i, k.FitsAt (a.product b) j) ∧ k.FailsAt (a.product b) i fault)
        ∧ (a.lift.dot b.lift : Checked k) = b.lift.dot a.lift
        ∧ (k.signed = false → ((∃ x, (a.lift.dot b.lift : Checked k) = .ok x)
          ↔ k.holds (∑ i, a.product b i))))
    ∧ ∀ (m : Normal (Bounded k)) (a : Vec (Bounded k) 3),
        (m.lift.dotVec a.lift : Checked k) = m.toVec.lift.dot a.lift
          ∧ (m.lift.dotVec a.lift : Checked k) = m.lift.dot (Normal.ofVec a).lift
  := by
  constructor
  · intro n a b
    rw [Vec.dot_lift a b, Vec.dot_lift b a]
    have hcomm : (Checked.total (a.product b) : Checked k) = Checked.total (b.product a) := by
      rw [Vec.product_comm]
    use Checked.exists_total_eq_ok_iff, fun x => Checked.val_of_total_eq_ok,
      fun fault => Checked.total_eq_error_iff, hcomm
    intro hk
    rw [Checked.exists_total_eq_ok_iff, IntegerKind.forall_fitsAt_iff (a.product_nonneg hk b)]
  · intro m a
    use Normal.dotVec_eq_dot_checked _ _, Normal.dotVec_eq_dot_checked _ _

/-- The greatest integer, and two numbers whose sum is zero. -/
def greatestAndOpposites : Vec (Bounded .signed32) 3 :=
  .of₃ (.wrap 2147483647) (.wrap 1) (.wrap (-1))

/-- The weights of a plain sum. -/
def unitWeights : Vec (Bounded .signed32) 3 := .of₃ (.wrap 1) (.wrap 1) (.wrap 1)

/-- The digits of the greatest integer without a sign, to the base of the `digitWeights`. -/
def greatestDigits : Vec (Bounded .unsigned64) 3 :=
  .of₃ (.wrap 4294967295) (.wrap 4294967295) (.wrap 0)

/-- The weights of two digits, and one that is not used. -/
def digitWeights : Vec (Bounded .unsigned64) 3 :=
  .of₃ (.wrap 4294967296) (.wrap 1) (.wrap 2)

/-- The sum of the first two products leaves the bounds although the dot product does not, which
does not happen without a sign. -/
theorem dot_between_bounds_greatest :
  IntegerKind.signed32.holds (∑ i, greatestAndOpposites.product unitWeights i)
    ∧ (greatestAndOpposites.lift.dot unitWeights.lift : Checked .signed32) = .error (.overflow .add)
    ∧ IntegerKind.unsigned64.signed = false
    ∧ ∃ x, (greatestDigits.lift.dot digitWeights.lift : Checked .unsigned64) = .ok x
      ∧ x.val = ∑ i, greatestDigits.product digitWeights i
  := by
  have hsigned := (dot_between_bounds .signed32).1 3 greatestAndOpposites unitWeights
  have hunsigned := (dot_between_bounds .unsigned64).1 3 greatestDigits digitWeights
  have hbefore : ∀ j < (1 : Fin 3),
      IntegerKind.signed32.FitsAt (greatestAndOpposites.product unitWeights) j := by
    decide +kernel
  have hfails : IntegerKind.signed32.FailsAt
      (greatestAndOpposites.product unitWeights) 1 (.overflow .add) := by
    apply IntegerKind.FailsAt.add
    · decide +kernel
    · decide +kernel
  obtain ⟨x, hx⟩ := (hunsigned.2.2.2.2 rfl).mpr (by decide +kernel)
  constructor
  · decide +kernel
  · use (hsigned.2.2.1 _).mpr ⟨1, hbefore, hfails⟩, rfl, x, hx, hunsigned.2.1 x hx

end RenderKernel
