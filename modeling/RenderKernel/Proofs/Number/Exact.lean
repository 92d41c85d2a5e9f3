import Mathlib.Algebra.Order.Field.Basic
import RenderKernel.Number.Operations

/-!
# Exact numbers

The laws of the operations beyond arithmetic over numbers that are not rounded: the square root
of a number that is not negative is exact, the absolute value is that of an ordered field, and
every angle has a sine and a cosine that are the coordinates of a point of the unit circle, the
angle zero those of its first point.
-/

universe u

namespace RenderKernel

/-- Numbers with exact square roots. -/
class ExactRoot (K : Type u) [Field K] [LinearOrder K] [SquareRoot K] : Prop where
  sqrt_nonneg (x : K) : 0 ≤ x → 0 ≤ sqrt x
  sqrt_mul_sqrt (x : K) : 0 ≤ x → sqrt x * sqrt x = x

/-- Numbers with exact absolute values. -/
class ExactModulus (K : Type u) [Field K] [LinearOrder K] [Modulus K] : Prop where
  modulus_eq (x : K) : modulus x = |x|

/-- Angles whose sines and cosines are coordinates of points of the unit circle. -/
class UnitCircle (K : Type u) [Field K] [Circular K] : Prop where
  sin_zero : Circular.sin (0 : K) = 0
  cos_zero : Circular.cos (0 : K) = 1
  sin_mul_sin_add_cos_mul_cos (angle : K) :
    Circular.sin angle * Circular.sin angle + Circular.cos angle * Circular.cos angle = 1

end RenderKernel
