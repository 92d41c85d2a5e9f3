import Mathlib.Order.WellFounded
import RenderKernel.Geometry.Operations
import RenderKernel.Proofs.Geometry.Column
import RenderKernel.Proofs.Number.Integer

/-!
# Undoing operations between bounds

An operation on vectors or points of bounded integers has a result if every component of the exact
result lies between the bounds, and otherwise the fault of the first one that does not
(`Primitive.Fits`).  What an operation made is undone by the opposite one, which then never fails:
its exact results are operands of the first one, and these lie between the bounds already
(`Primitive.Fits.undone`).
-/

namespace RenderKernel

variable {k : IntegerKind} {n : Nat}

/-! ### Exact results -/

/-- Of the numbers without a property, there is a first one. -/
theorem exists_first {p : Fin n → Prop} (h : ∃ i, ¬ p i) :
  ∃ i, (∀ j < i, p j) ∧ ¬ p i
  := by
  obtain ⟨i, hi, hleast⟩ := wellFounded_lt.has_min {i | ¬ p i} h
  use i
  constructor
  · intro j hj
    by_contra hp
    apply hleast j hp hj
  · exact hi

namespace Primitive

variable {P : Type} [Primitive P (Bounded k) n]

/-- A component as an integer. -/
def value (p : P) (i : Fin n) : Int := ((components p).get i).val

theorem holds_value (p : P) (i : Fin n) :
  k.holds (value p i)
  := Bounded.holds_val _

/-- A result has the exact components.  There is none if one of them does not lie between the bounds,
and the fault is that of the first one. -/
structure Fits (operation : IntegerOperation) (exact : Fin n → Int)
    (result : Except ArithmeticFault P) : Prop where
  ok_iff (p : P) : result = .ok p ↔ ∀ i, value p i = exact i
  fails_iff : (∃ fault, result = .error fault) ↔ ∃ i, ¬ k.holds (exact i)
  error_iff (fault : ArithmeticFault) : result = .error fault
    ↔ ∃ i, (∀ j < i, k.holds (exact j)) ∧ ¬ k.holds (exact i) ∧ fault = .overflow operation

/-- Components are fitted between the bounds one by one. -/
theorem fits_of_get {operation : IntegerOperation} {exact : Fin n → Int} {c : Vector (Checked k) n}
    {make : Vector (Bounded k) n → P} (hmake : ∀ p d, make d = p ↔ d = components p)
    (hc : ∀ i, c.get i = Bounded.fit operation (exact i)) :
  Fits operation exact ((Column.sequence Computation.run c).map make)
  := by
  have hrun (i : Fin n) : Computation.run (c.get i) = Bounded.fit operation (exact i) := hc i
  have herror (fault : ArithmeticFault) :
      (Column.sequence Computation.run c).map make = .error fault
        ↔ ∃ i, (∀ j < i, k.holds (exact j)) ∧ ¬ k.holds (exact i) ∧ fault = .overflow operation := by
    rw [map_eq_error_iff, Column.sequence_eq_error_iff]
    simp only [hrun, Bounded.exists_fit_eq_ok_iff, Bounded.fit_eq_error_iff]
  constructor
  · intro p
    rw [map_eq_ok_iff (hmake p), Column.sequence_eq_ok_iff]
    simp only [hrun, Bounded.fit_eq_ok_iff, value]
  · simp only [herror]
    constructor
    · rintro ⟨_, i, _, hi, _⟩
      use i
    · intro h
      obtain ⟨i, hbefore, hi⟩ := exists_first h
      use .overflow operation, i, hbefore, hi
  · exact herror

/-- An operation on a result undoes the one that it comes from, if its exact components are those of an
operand. -/
theorem Fits.undone {Q : Type} [Primitive Q (Bounded k) n] {operation operation' : IntegerOperation}
    {exact exact' : Fin n → Int} {result : Except ArithmeticFault P}
    {back : Except ArithmeticFault Q} {p : P} {q : Q} (hresult : Fits operation exact result)
    (hback : Fits operation' exact' back) (h : result = .ok p)
    (hexact : ∀ i, value p i = exact i → value q i = exact' i) :
  back = .ok q
  := by
  have hvalue := (hresult.ok_iff p).mp h
  apply (hback.ok_iff q).mpr
  intro i
  apply hexact i (hvalue i)

end Primitive

open Primitive (value holds_value Fits)

/-! ### Vectors -/

namespace Vec

/-- A vector whose components are fitted between the bounds has a result exactly if all of them fit. -/
theorem fits_evaluate {operation : IntegerOperation} {exact : Fin n → Int} {a : Vec (Checked k) n}
    (h : ∀ i, a.components.get i = Bounded.fit operation (exact i)) :
  Fits operation exact a.evaluate
  := by
  apply Primitive.fits_of_get _ h
  intro a d
  exact ⟨fun h => h ▸ rfl, fun h => h ▸ rfl⟩

theorem fits_plus (a b : Vec (Bounded k) n) :
  Fits .add (fun i => value a i + value b i) (a.plus (Checked k) b)
  := by
  apply fits_evaluate
  intro i
  rw [get_add, get_lift, get_lift]
  rfl

theorem fits_minus (a b : Vec (Bounded k) n) :
  Fits .subtract (fun i => value a i - value b i) (a.minus (Checked k) b)
  := by
  apply fits_evaluate
  intro i
  rw [get_sub, get_lift, get_lift]
  rfl

theorem fits_opposite (a : Vec (Bounded k) n) :
  Fits .negate (fun i => -value a i) (a.opposite (Checked k))
  := by
  apply fits_evaluate
  intro i
  rw [get_neg, get_lift]
  rfl

theorem fits_times (a : Vec (Bounded k) n) (s : Bounded k) :
  Fits .multiply (fun i => value a i * s.val) (a.times (Checked k) s)
  := by
  apply fits_evaluate
  intro i
  rw [get_scale, get_lift]
  rfl

theorem fits_dividedBy (a : Vec (Bounded k) n) {s : Bounded k} (hs : s.val ≠ 0) :
  Fits .divide (fun i => (value a i).tdiv s.val) (a.dividedBy (Checked k) s)
  := by
  apply fits_evaluate
  intro i
  rw [get_divide, get_lift]
  apply Checked.ok_div_ok hs

/-- Divisions by zero fail with the first component, if there is one. -/
theorem dividedBy_zero_eq_error_iff (a : Vec (Bounded k) n) {s : Bounded k} (hs : s.val = 0)
    {fault : ArithmeticFault} :
  a.dividedBy (Checked k) s = .error fault ↔ 0 < n ∧ fault = .divisionByZero
  := by
  have hrun (i : Fin n) : Computation.run
      ((a.lift (S := Checked k) / (Computation.value s : Checked k)).components.get i)
        = .error .divisionByZero := by
    rw [get_divide, get_lift]
    apply Checked.ok_div_zero _ hs
  rw [dividedBy, evaluate, map_eq_error_iff, Column.sequence_eq_error_iff]
  simp only [hrun]
  constructor
  · rintro ⟨i, -, hfault⟩
    cases hfault
    use i.pos
  · rintro ⟨hn, rfl⟩
    use ⟨0, hn⟩
    constructor
    · intro j hj
      apply absurd hj (Nat.not_lt_zero j)
    · rfl

/-- A division fails if it is one by zero, or if it turns the sign of the least integer. -/
theorem dividedBy_eq_error_iff (a : Vec (Bounded k) n) (s : Bounded k) {fault : ArithmeticFault} :
  a.dividedBy (Checked k) s = .error fault
    ↔ s.val = 0 ∧ 0 < n ∧ fault = .divisionByZero
      ∨ s.val = -1 ∧ ∃ i, (∀ j < i, value a j ≠ k.least) ∧ value a i = k.least
        ∧ fault = .overflow .divide
  := by
  by_cases hs : s.val = 0
  · rw [dividedBy_zero_eq_error_iff a hs]
    constructor
    · intro h
      exact .inl ⟨hs, h⟩
    · rintro (⟨-, h⟩ | ⟨hminus, -⟩)
      · apply h
      · omega
  · have hholds (i : Fin n) :
        k.holds ((value a i).tdiv s.val) ↔ (s.val = -1 → value a i ≠ k.least) := by
      rw [IntegerKind.holds_tdiv_iff (holds_value a i) s.holds_val, not_and]
    rw [(fits_dividedBy a hs).error_iff]
    simp only [hholds]
    constructor
    · rintro ⟨i, hbefore, hi, hfault⟩
      obtain ⟨hminus, hleast⟩ := Classical.not_imp.mp hi
      exact .inr ⟨hminus, i, fun j hj => hbefore j hj hminus, not_not.mp hleast, hfault⟩
    · rintro (⟨hzero, -⟩ | ⟨hminus, i, hbefore, hi, hfault⟩)
      · apply absurd hzero hs
      · exact ⟨i, fun j hj _ => hbefore j hj, fun h => h hminus hi, hfault⟩

/-- What has been added is subtracted again. -/
theorem minus_of_plus {a b c : Vec (Bounded k) n} (h : a.plus (Checked k) b = .ok c) :
  c.minus (Checked k) b = .ok a
  := by
  apply (fits_plus a b).undone (fits_minus c b) h
  intro i hsum
  omega

/-- Dividing undoes the multiplication by a number other than zero. -/
theorem dividedBy_of_times {a b : Vec (Bounded k) n} {s : Bounded k}
    (h : a.times (Checked k) s = .ok b) (hs : s.val ≠ 0) :
  b.dividedBy (Checked k) s = .ok a
  := by
  apply (fits_times a s).undone (fits_dividedBy b hs) h
  intro i hproduct
  rw [hproduct, Int.mul_tdiv_cancel _ hs]

theorem opposite_of_opposite {a b : Vec (Bounded k) n} (h : a.opposite (Checked k) = .ok b) :
  b.opposite (Checked k) = .ok a
  := by
  apply (fits_opposite a).undone (fits_opposite b) h
  intro i hopposite
  omega

end Vec

/-! ### Points -/

namespace Point

theorem fits_evaluate {operation : IntegerOperation} {exact : Fin n → Int}
    {p : Point (Checked k) n} (h : ∀ i, p.components.get i = Bounded.fit operation (exact i)) :
  Fits operation exact p.evaluate
  := by
  apply Primitive.fits_of_get _ h
  intro p d
  exact ⟨fun h => h ▸ rfl, fun h => h ▸ rfl⟩

theorem fits_minus (p q : Point (Bounded k) n) :
  Fits .subtract (fun i => value p i - value q i) (p.minus (Checked k) q)
  := by
  apply Vec.fits_evaluate
  intro i
  rw [get_sub, get_lift, get_lift]
  rfl

theorem fits_moved (p : Point (Bounded k) n) (a : Vec (Bounded k) n) :
  Fits .add (fun i => value p i + value a i) (p.moved (Checked k) a)
  := by
  apply fits_evaluate
  intro i
  rw [get_add_vec, get_lift, Vec.get_lift]
  rfl

theorem fits_movedBack (p : Point (Bounded k) n) (a : Vec (Bounded k) n) :
  Fits .subtract (fun i => value p i - value a i) (p.movedBack (Checked k) a)
  := by
  apply fits_evaluate
  intro i
  rw [get_sub_vec, get_lift, Vec.get_lift]
  rfl

variable {p q r : Point (Bounded k) n} {a : Vec (Bounded k) n}

/-- A difference of points leads from one to the other. -/
theorem moved_of_minus (h : q.minus (Checked k) p = .ok a) :
  p.moved (Checked k) a = .ok q
  := by
  apply (fits_minus q p).undone (fits_moved p a) h
  intro i hdifference
  omega

/-- Moved back by its difference from another point, a point becomes the other one. -/
theorem movedBack_of_minus (h : q.minus (Checked k) p = .ok a) :
  q.movedBack (Checked k) a = .ok p
  := by
  apply (fits_minus q p).undone (fits_movedBack q a) h
  intro i hdifference
  omega

/-- Moving back undoes a move. -/
theorem movedBack_of_moved (h : p.moved (Checked k) a = .ok r) :
  r.movedBack (Checked k) a = .ok p
  := by
  apply (fits_moved p a).undone (fits_movedBack r a) h
  intro i hsum
  omega

/-- A move is the difference of the points that it leads to and comes from. -/
theorem minus_of_moved (h : p.moved (Checked k) a = .ok r) :
  r.minus (Checked k) p = .ok a
  := by
  apply (fits_moved p a).undone (fits_minus r p) h
  intro i hsum
  omega

/-- A move undoes the move back. -/
theorem moved_of_movedBack (h : p.movedBack (Checked k) a = .ok r) :
  r.moved (Checked k) a = .ok p
  := by
  apply (fits_movedBack p a).undone (fits_moved r a) h
  intro i hdifference
  omega

end Point

/-! ### Assigning forms -/

namespace Update

variable {P : Type}

/-- A step leaves the result of an operation in a variable, or the variable as it was. -/
structure Assigns (step : Update P Unit) (operation : P → Except ArithmeticFault P) : Prop where
  ok (old new : P) : operation old = .ok new → step.outcome old = (.ok (), new)
  error (old : P) (fault : ArithmeticFault) : operation old = .error fault →
    step.outcome old = (.error fault, old)

/-- An operation that assigns its result leaves the target as it was if it fails. -/
theorem assigns_assign (operation : P → Except ArithmeticFault P) :
  Assigns (assign operation) operation
  := by
  constructor
  · intro old new h
    rw [outcome_assign, h]
    rfl
  · intro old fault h
    rw [outcome_assign, h]
    rfl

end Update

open Update (Assigns assigns_assign)

/-- Between the bounds of any kind of integers, an operation has the exact result, or the fault of the
first component that does not lie between the bounds.  If it has a result, then the operation that
undoes it has one, too, which is the operand that it started from.  A division fails if it is one by
zero, or if it turns the sign of the least integer.  The assigning forms leave the same results in a
variable, which is as it was if there is none. -/
theorem operations_undone (k : IntegerKind) (n : Nat) :
  (∀ p q : Point (Bounded k) n,
      Fits .subtract (fun i => value q i - value p i) (q.minus (Checked k) p)
      ∧ ∀ a, q.minus (Checked k) p = .ok a →
        p.moved (Checked k) a = .ok q ∧ q.movedBack (Checked k) a = .ok p)
    ∧ (∀ (p : Point (Bounded k) n) (a : Vec (Bounded k) n),
      Fits .add (fun i => value p i + value a i) (p.moved (Checked k) a)
      ∧ ∀ q, p.moved (Checked k) a = .ok q →
        q.movedBack (Checked k) a = .ok p ∧ q.minus (Checked k) p = .ok a)
    ∧ (∀ (p : Point (Bounded k) n) (a : Vec (Bounded k) n),
      Fits .subtract (fun i => value p i - value a i) (p.movedBack (Checked k) a)
      ∧ ∀ q, p.movedBack (Checked k) a = .ok q → q.moved (Checked k) a = .ok p)
    ∧ (∀ a b : Vec (Bounded k) n,
      Fits .add (fun i => value a i + value b i) (a.plus (Checked k) b)
      ∧ ∀ c, a.plus (Checked k) b = .ok c → c.minus (Checked k) b = .ok a)
    ∧ (∀ (a : Vec (Bounded k) n) (s : Bounded k),
      Fits .multiply (fun i => value a i * s.val) (a.times (Checked k) s)
      ∧ ∀ b, a.times (Checked k) s = .ok b → s.val ≠ 0 → b.dividedBy (Checked k) s = .ok a)
    ∧ (∀ a : Vec (Bounded k) n,
      Fits .negate (fun i => -value a i) (a.opposite (Checked k))
      ∧ ∀ b, a.opposite (Checked k) = .ok b → b.opposite (Checked k) = .ok a)
    ∧ (∀ (a : Vec (Bounded k) n) (s : Bounded k),
      (s.val ≠ 0 → Fits .divide (fun i => (value a i).tdiv s.val) (a.dividedBy (Checked k) s))
      ∧ ∀ fault, a.dividedBy (Checked k) s = .error fault
        ↔ s.val = 0 ∧ 0 < n ∧ fault = .divisionByZero
          ∨ s.val = -1 ∧ ∃ i, (∀ j < i, value a j ≠ k.least) ∧ value a i = k.least
            ∧ fault = .overflow .divide)
    ∧ (∀ a : Vec (Bounded k) n,
      Assigns (Point.addAssign (Checked k) a) (·.moved (Checked k) a)
      ∧ Assigns (Point.subAssign (Checked k) a) (·.movedBack (Checked k) a)
      ∧ Assigns (Vec.addAssign (Checked k) a) (·.plus (Checked k) a)
      ∧ Assigns (Vec.subAssign (Checked k) a) (·.minus (Checked k) a))
    ∧ ∀ s : Bounded k,
      Assigns (Vec.mulAssign (n := n) (Checked k) s) (·.times (Checked k) s)
      ∧ Assigns (Vec.divAssign (n := n) (Checked k) s) (·.dividedBy (Checked k) s)
  := by
  refine ⟨?_, ?_, ?_, ?_, ?_, ?_, ?_, ?_, ?_⟩
  · intro p q
    use Point.fits_minus q p
    intro a h
    use Point.moved_of_minus h, Point.movedBack_of_minus h
  · intro p a
    use Point.fits_moved p a
    intro q h
    use Point.movedBack_of_moved h, Point.minus_of_moved h
  · intro p a
    use Point.fits_movedBack p a
    intro q h
    apply Point.moved_of_movedBack h
  · intro a b
    use Vec.fits_plus a b
    intro c h
    apply Vec.minus_of_plus h
  · intro a s
    use Vec.fits_times a s
    intro b h hs
    apply Vec.dividedBy_of_times h hs
  · intro a
    use Vec.fits_opposite a
    intro b h
    apply Vec.opposite_of_opposite h
  · intro a s
    use Vec.fits_dividedBy a
    intro fault
    apply Vec.dividedBy_eq_error_iff
  · intro a
    exact ⟨assigns_assign _, assigns_assign _, assigns_assign _, assigns_assign _⟩
  · intro s
    exact ⟨assigns_assign _, assigns_assign _⟩

/-- A point at the least integer. -/
def leastPoint : Point (Bounded .signed32) 3 :=
  .of₃ (.wrap (-2147483648)) (.wrap 0) (.wrap 1)

/-- A point at the greatest integer. -/
def greatestPoint : Point (Bounded .signed32) 3 :=
  .of₃ (.wrap (-1)) (.wrap 2147483647) (.wrap 1)

/-- The vector from the one to the other. -/
def greatestTwice : Vec (Bounded .signed32) 3 :=
  .of₃ (.wrap 2147483647) (.wrap 2147483647) (.wrap 0)

/-- A difference as great as the bounds allow leads back and forth, while the sign of the least integer
cannot be turned, and a variable that holds it is kept. -/
theorem operations_undone_signed32 :
  let p := leastPoint
  let q := greatestPoint
  let a := greatestTwice
  let v := p.coords
  q.minus (Checked .signed32) p = .ok a
    ∧ p.moved (Checked .signed32) a = .ok q ∧ q.movedBack (Checked .signed32) a = .ok p
    ∧ (∃ fault, v.opposite (Checked .signed32) = .error fault)
    ∧ v.dividedBy (Checked .signed32) (.wrap (-1)) = .error (.overflow .divide)
    ∧ (Vec.divAssign (Checked .signed32) (.wrap (-1))).outcome v = (.error (.overflow .divide), v)
  := by
  intro p q a v
  obtain ⟨hminus, -, -, -, -, hopposite, hover, -, hassigns⟩ := operations_undone .signed32 3
  obtain ⟨hfits, hback⟩ := hminus p q
  have hdifference : q.minus (Checked .signed32) p = .ok a := (hfits.ok_iff a).mpr (by decide +kernel)
  have hquotient : v.dividedBy (Checked .signed32) (.wrap (-1)) = .error (.overflow .divide) := by
    apply ((hover v (.wrap (-1))).2 _).mpr
    exact .inr ⟨by decide +kernel, 0, by decide +kernel, by decide +kernel, rfl⟩
  obtain ⟨hmoved, hmovedBack⟩ := hback a hdifference
  use hdifference, hmoved, hmovedBack
  constructor
  · apply (hopposite v).1.fails_iff.mpr
    use 0
    decide +kernel
  · use hquotient, (hassigns _).2.error v _ hquotient

end RenderKernel
