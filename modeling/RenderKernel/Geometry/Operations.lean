import RenderKernel.Geometry.Normal
import RenderKernel.Geometry.Point

/-!
# Operations on stored quantities

An operation on vectors, normals or points computes the components of its result from the stored
ones of its operands.  It has the result that these computations yield, or the fault of the first one
that fails.  Its assigning form replaces the first operand by the result, which is computed before
anything is replaced, so that a failed operation leaves its operand as it was.
-/

namespace RenderKernel

/-- Steps on a variable that may fail. -/
abbrev Update (P : Type) : Type → Type := ExceptT ArithmeticFault (StateM P)

namespace Update

variable {P : Type}

/-- Replaces a variable by what an operation makes of it. -/
def assign (operation : P → Except ArithmeticFault P) : Update P Unit := do
  let old ← getThe P
  let new ← ExceptT.mk (pure (operation old))
  set new

/-- How a step ends, and what the variable holds then. -/
def outcome (step : Update P Unit) (old : P) : Except ArithmeticFault Unit × P :=
  step.run.run old

theorem outcome_assign (operation : P → Except ArithmeticFault P) (old : P) :
  (assign operation).outcome old
    = ((operation old).map fun _ => (), stored old (operation old))
  := by
  have hrun : (assign operation).outcome old
      = (ExceptT.bindCont (fun new => (set new : Update P Unit)) (operation old)).run old := rfl
  rw [hrun]
  cases operation old with
  | ok new => rfl
  | error fault => rfl

end Update

namespace Vec

variable (S : Type) {V : Type} [Computation S V] {n : Nat}

/-- The sum of two vectors. -/
def plus [Add S] (a b : Vec V n) : Except ArithmeticFault (Vec V n) :=
  (a.lift (S := S) + b.lift (S := S)).evaluate

/-- The difference of two vectors. -/
def minus [Sub S] (a b : Vec V n) : Except ArithmeticFault (Vec V n) :=
  (a.lift (S := S) - b.lift (S := S)).evaluate

/-- The opposite of a vector. -/
def opposite [Neg S] (a : Vec V n) : Except ArithmeticFault (Vec V n) :=
  (-a.lift (S := S)).evaluate

/-- A vector times a number. -/
def times [Mul S] (a : Vec V n) (k : V) : Except ArithmeticFault (Vec V n) :=
  (a.lift (S := S) * (Computation.value k : S)).evaluate

/-- A vector divided by a number. -/
def dividedBy [Div S] (a : Vec V n) (k : V) : Except ArithmeticFault (Vec V n) :=
  (a.lift (S := S) / (Computation.value k : S)).evaluate

end Vec

namespace Normal

variable (S : Type) {V : Type} [Computation S V]

/-- The sum of two normals. -/
def plus [Add S] (m n : Normal V) : Except ArithmeticFault (Normal V) :=
  (m.lift (S := S) + n.lift (S := S)).evaluate

/-- The difference of two normals. -/
def minus [Sub S] (m n : Normal V) : Except ArithmeticFault (Normal V) :=
  (m.lift (S := S) - n.lift (S := S)).evaluate

/-- The opposite of a normal. -/
def opposite [Neg S] (n : Normal V) : Except ArithmeticFault (Normal V) :=
  (-n.lift (S := S)).evaluate

/-- A normal times a number. -/
def times [Mul S] (n : Normal V) (k : V) : Except ArithmeticFault (Normal V) :=
  (n.lift (S := S) * (Computation.value k : S)).evaluate

/-- A normal divided by a number. -/
def dividedBy [Div S] (n : Normal V) (k : V) : Except ArithmeticFault (Normal V) :=
  (n.lift (S := S) / (Computation.value k : S)).evaluate

end Normal

namespace Point

variable (S : Type) {V : Type} [Computation S V] {n : Nat}

/-- The vector to a point from another one. -/
def minus [Sub S] (p q : Point V n) : Except ArithmeticFault (Vec V n) :=
  (p.lift (S := S) - q.lift (S := S) : Vec S n).evaluate

/-- The point that a vector leads to. -/
def moved [Add S] (p : Point V n) (a : Vec V n) : Except ArithmeticFault (Point V n) :=
  (p.lift (S := S) + a.lift (S := S)).evaluate

/-- The point that a vector leads from. -/
def movedBack [Sub S] (p : Point V n) (a : Vec V n) : Except ArithmeticFault (Point V n) :=
  (p.lift (S := S) - a.lift (S := S) : Point S n).evaluate

end Point

/-! ### Assigning forms -/

namespace Vec

variable (S : Type) {V : Type} [Computation S V] {n : Nat}

/-- Adds a vector to a variable. -/
def addAssign [Add S] (b : Vec V n) : Update (Vec V n) Unit := .assign fun a => a.plus S b

/-- Subtracts a vector from a variable. -/
def subAssign [Sub S] (b : Vec V n) : Update (Vec V n) Unit := .assign fun a => a.minus S b

/-- Multiplies a variable by a number. -/
def mulAssign [Mul S] (k : V) : Update (Vec V n) Unit := .assign fun a => a.times S k

/-- Divides a variable by a number. -/
def divAssign [Div S] (k : V) : Update (Vec V n) Unit := .assign fun a => a.dividedBy S k

end Vec

namespace Normal

variable (S : Type) {V : Type} [Computation S V]

/-- Adds a normal to a variable. -/
def addAssign [Add S] (n : Normal V) : Update (Normal V) Unit := .assign fun m => m.plus S n

/-- Subtracts a normal from a variable. -/
def subAssign [Sub S] (n : Normal V) : Update (Normal V) Unit := .assign fun m => m.minus S n

/-- Multiplies a variable by a number. -/
def mulAssign [Mul S] (k : V) : Update (Normal V) Unit := .assign fun m => m.times S k

/-- Divides a variable by a number. -/
def divAssign [Div S] (k : V) : Update (Normal V) Unit := .assign fun m => m.dividedBy S k

end Normal

namespace Point

variable (S : Type) {V : Type} [Computation S V] {n : Nat}

/-- Moves a variable by a vector. -/
def addAssign [Add S] (a : Vec V n) : Update (Point V n) Unit := .assign fun p => p.moved S a

/-- Moves a variable back by a vector. -/
def subAssign [Sub S] (a : Vec V n) : Update (Point V n) Unit := .assign fun p => p.movedBack S a

end Point

end RenderKernel
