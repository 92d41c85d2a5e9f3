/-!
# Operations beyond arithmetic

The classes of the operations that geometry needs besides the arithmetic ones.  They carry no
laws: the same geometry is read over rounded numbers, where few laws hold, and over exact
ones, where the usual ones do.
-/

namespace RenderKernel

universe u

/-- Numbers that have a square root. -/
class SquareRoot (S : Type u) where
  sqrt : S → S

/-- Numbers that have an absolute value. -/
class Modulus (S : Type u) where
  modulus : S → S

/-- Numbers that are angles and have a sine and a cosine. -/
class Circular (S : Type u) where
  sin : S → S
  cos : S → S

export SquareRoot (sqrt)
export Modulus (modulus)

end RenderKernel
