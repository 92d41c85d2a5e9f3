import RenderKernel.Number.Arithmetic
import RenderKernel.Number.Integer

/-!
# Computing with numbers

Geometry is computed with numbers that may stand for a failed computation; what is kept are
the numbers that a successful computation yields.  Floating-point computations always yield a
number, integer computations may fail.
-/

namespace RenderKernel

/-- Computations of type `S` that yield numbers of type `V`. -/
class Computation (S : Type) (V : outParam Type) where
  /-- The computation that yields a given number. -/
  value : V → S
  /-- The number that a computation yields, or its first fault. -/
  run : S → Except ArithmeticFault V

instance {f : Format} : Computation (Binary f) (Binary f) where
  value x := x
  run x := .ok x

instance {k : IntegerKind} : Computation (Checked k) (Bounded k) where
  value x := .ok x
  run x := x

/-- The stored value after an attempt to replace it by a computed one: a failed computation
leaves it as it was. -/
def stored {α : Type} (old : α) : Except ArithmeticFault α → α
  | .ok new => new
  | .error _ => old

end RenderKernel
