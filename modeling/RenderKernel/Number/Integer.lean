/-!
# Integers between bounds

An `IntegerKind` fixes the least and the greatest integer that a kind of machine integer can
hold, and `Bounded k` are the integers between them.  A computation on them is a `Checked k`:
it has a value, or it has failed with the first fault that it met.  Operands are evaluated from
left to right, then the result is formed exactly and must lie between the bounds.
-/

namespace RenderKernel

/-- A kind of machine integer. -/
structure IntegerKind where
  signed : Bool
  bits : Nat
deriving DecidableEq, Repr

namespace IntegerKind

/-- The integers of 32 bits with a sign. -/
def signed32 : IntegerKind := ⟨true, 32⟩

/-- The integers of 64 bits with a sign. -/
def signed64 : IntegerKind := ⟨true, 64⟩

/-- The integers of 64 bits without a sign. -/
def unsigned64 : IntegerKind := ⟨false, 64⟩

/-- The least integer of the kind. -/
def least (k : IntegerKind) : Int := if k.signed then -(Nat.pow 2 (k.bits - 1)) else 0

/-- The greatest integer of the kind. -/
def greatest (k : IntegerKind) : Int :=
  if k.signed then Nat.pow 2 (k.bits - 1) - 1 else Nat.pow 2 k.bits - 1

/-- Whether an integer lies between the bounds of the kind. -/
def holds (k : IntegerKind) (n : Int) : Bool := decide (k.least ≤ n) && decide (n ≤ k.greatest)

theorem least_le_zero (k : IntegerKind) :
  k.least ≤ 0
  := by
  unfold least
  split <;> omega

theorem zero_le_greatest (k : IntegerKind) :
  0 ≤ k.greatest
  := by
  have h₁ : 0 < Nat.pow 2 (k.bits - 1) := Nat.two_pow_pos _
  have h₂ : 0 < Nat.pow 2 k.bits := Nat.two_pow_pos _
  unfold greatest
  split <;> omega

/-- Every pattern of bits has an integer between the bounds. -/
theorem patterns_le (k : IntegerKind) :
  (Nat.pow 2 k.bits : Int) ≤ k.greatest - k.least + 1
  := by
  have hdouble : Nat.pow 2 k.bits ≤ 2 * Nat.pow 2 (k.bits - 1) := by
    rw [Nat.pow_eq, Nat.pow_eq, ← Nat.pow_succ']
    apply Nat.pow_le_pow_right Nat.two_pos
    omega
  unfold greatest least
  split <;> omega

theorem patterns_pos (k : IntegerKind) :
  0 < (Nat.pow 2 k.bits : Int)
  := Int.natCast_pos.mpr (Nat.two_pow_pos _)

end IntegerKind

/-- An operation that can leave the bounds. -/
inductive IntegerOperation where
  | add
  | subtract
  | multiply
  | negate
  | divide
deriving DecidableEq, Repr

/-- Why a computation on integers failed. -/
inductive ArithmeticFault where
  | overflow (operation : IntegerOperation)
  | divisionByZero
deriving DecidableEq, Repr

/-- The word for an operation in messages. -/
def IntegerOperation.name : IntegerOperation → String
  | .add => "add"
  | .subtract => "subtract"
  | .multiply => "multiply"
  | .negate => "negate"
  | .divide => "divide"

/-- The text that reports a fault. -/
def ArithmeticFault.message : ArithmeticFault → String
  | .overflow operation => "attempt to " ++ operation.name ++ " with overflow"
  | .divisionByZero => "attempt to divide by zero"

/-- An integer between the bounds of a kind. -/
structure Bounded (k : IntegerKind) where
  val : Int
  least_le : k.least ≤ val
  le_greatest : val ≤ k.greatest
deriving DecidableEq

/-- The result of a computation on integers of a kind. -/
abbrev Checked (k : IntegerKind) : Type := Except ArithmeticFault (Bounded k)

namespace Bounded

variable {k : IntegerKind}

/-- The integer, if it lies between the bounds. -/
def ofInt? (n : Int) : Option (Bounded k) :=
  if h : k.least ≤ n ∧ n ≤ k.greatest then some ⟨n, h.1, h.2⟩ else none

/-- The exact result of an operation, if it lies between the bounds. -/
def fit (operation : IntegerOperation) (n : Int) : Checked k :=
  if h : k.least ≤ n ∧ n ≤ k.greatest then .ok ⟨n, h.1, h.2⟩ else .error (.overflow operation)

/-- Zero, which lies between the bounds of every kind. -/
def zero : Bounded k := ⟨0, k.least_le_zero, k.zero_le_greatest⟩

/-- The integer of the kind that has the same last bits as `n`. -/
def wrap (n : Int) : Bounded k where
  val := k.least + (n - k.least) % Nat.pow 2 k.bits
  least_le := Int.le_add_of_nonneg_right (Int.emod_nonneg _ (Int.ne_of_gt k.patterns_pos))
  le_greatest := by
    have hrest := Int.emod_lt_of_pos (n - k.least) k.patterns_pos
    have hpatterns := k.patterns_le
    omega

theorem ofInt?_of_bounds {n : Int} (hleast : k.least ≤ n) (hgreatest : n ≤ k.greatest) :
  (ofInt? n : Option (Bounded k)) = some ⟨n, hleast, hgreatest⟩
  := dif_pos ⟨hleast, hgreatest⟩

theorem fit_of_bounds (operation : IntegerOperation) {n : Int} (hleast : k.least ≤ n)
    (hgreatest : n ≤ k.greatest) :
  (fit operation n : Checked k) = .ok ⟨n, hleast, hgreatest⟩
  := dif_pos ⟨hleast, hgreatest⟩

/-- An integer between the bounds is kept, if no pattern of bits is without an integer. -/
theorem wrap_of_bounds (hpatterns : k.greatest - k.least < Nat.pow 2 k.bits) {n : Int}
    (hleast : k.least ≤ n) (hgreatest : n ≤ k.greatest) :
  (wrap n : Bounded k) = ⟨n, hleast, hgreatest⟩
  := by
  have hrest : (n - k.least) % Nat.pow 2 k.bits = n - k.least :=
    Int.emod_eq_of_lt (by omega) (by omega)
  rw [wrap, mk.injEq, hrest]
  omega

end Bounded

namespace Checked

variable {k : IntegerKind}

/-- Evaluates both operands, the left one first, and fits the exact result. -/
def combine (operation : IntegerOperation) (op : Int → Int → Int) (a b : Checked k) :
    Checked k := do
  let x ← a
  let y ← b
  Bounded.fit operation (op x.val y.val)

/-- The quotient, rounded toward zero. -/
def divide (a b : Checked k) : Checked k := do
  let x ← a
  let y ← b
  if y.val = 0 then .error .divisionByZero else Bounded.fit .divide (x.val.tdiv y.val)

/-- The integer with the opposite sign. -/
def negate (a : Checked k) : Checked k := do
  let x ← a
  Bounded.fit .negate (-x.val)

instance : Zero (Checked k) := ⟨.ok Bounded.zero⟩
instance : Add (Checked k) := ⟨combine .add (· + ·)⟩
instance : Sub (Checked k) := ⟨combine .subtract (· - ·)⟩
instance : Mul (Checked k) := ⟨combine .multiply (· * ·)⟩
instance : Div (Checked k) := ⟨divide⟩
instance : Neg (Checked k) := ⟨negate⟩

theorem ok_sub_ok (x y : Bounded k) :
  (.ok x - .ok y : Checked k) = Bounded.fit .subtract (x.val - y.val)
  := rfl

end Checked

end RenderKernel
