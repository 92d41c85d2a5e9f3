import RenderKernel.Geometry.Primitive
import RenderKernel.Number.Computation

/-!
# Approximate equality

Three ways of calling two numbers equal up to an error: by the absolute difference, by the
difference relative to the greater of the two, and by the number of representable values
between them.  Primitives are close if all their components are, compared in order up to the
first pair that is not.  Comparing integers may fail, since their difference is computed in
their own kind.
-/

namespace RenderKernel

/-! ### Absolute difference -/

/-- Numbers that can be compared up to an absolute error. -/
class AbsoluteCloseness (V : Type) where
  /-- The error that is allowed unless another is given. -/
  tolerance : V
  /-- Whether two numbers differ by at most an error. -/
  close : V → V → V → Except ArithmeticFault Bool

namespace Binary

variable {f : Format}

/-- The distance from one to the next greater number. -/
def epsilon : Binary f := nearest false ((Ratio.ofNat 1).scale2 (-(f.fractionBits : Int)))

/-- Whether the absolute difference is at most `tolerance`. -/
def absoluteClose (x y tolerance : Binary f) : Bool := (x - y).absolute ≤ tolerance

/-- Whether the numbers are equal, differ by at most `tolerance`, or differ by at most the
greater absolute value times `relative`; infinities are close only to themselves. -/
def relativeClose (x y tolerance relative : Binary f) : Bool :=
  if x == y then true
  else if x.isInfinite || y.isInfinite then false
  else
    let difference := (x - y).absolute
    let greatest := if x.absolute < y.absolute then y.absolute else x.absolute
    decide (difference ≤ tolerance) || decide (difference ≤ greatest * relative)

/-- How many steps apart the magnitudes of two numbers are. -/
def steps (x y : Binary f) : Nat := max x.magnitude y.magnitude - min x.magnitude y.magnitude

/-- Whether the numbers differ by at most `tolerance`, or have the same sign and are at most
`units` representable values apart. -/
def unitsClose (x y tolerance : Binary f) (units : Nat) : Bool :=
  absoluteClose x y tolerance
    || (!x.isNaN && !y.isNaN && x.negative == y.negative && decide (steps x y ≤ units))

/-- The number of representable values that may lie between two close numbers. -/
def defaultUnits : Nat := 4

instance : AbsoluteCloseness (Binary f) where
  tolerance := epsilon
  close x y tolerance := .ok (absoluteClose x y tolerance)

end Binary

namespace Bounded

variable {k : IntegerKind}

/-- The absolute difference.  Signed integers are subtracted and the result made positive, so
that either step may leave the bounds; unsigned ones have the smaller subtracted from the
greater. -/
def distance (x y : Bounded k) : Checked k :=
  if k.signed then do
    let d ← fit .subtract (x.val - y.val)
    if d.val < 0 then fit .negate (-d.val) else return d
  else
    fit .subtract (max x.val y.val - min x.val y.val)

instance : AbsoluteCloseness (Bounded k) where
  tolerance := Bounded.zero
  close x y tolerance := do
    let d ← distance x y
    return decide (d.val ≤ tolerance.val)

end Bounded

/-! ### Primitives -/

namespace Column

variable {V : Type} {n : Nat}

/-- Whether a comparison that may fail holds for all pairs; it stops at the first pair for
which it does not. -/
def allPairs (close : V → V → Except ArithmeticFault Bool) :
    List (V × V) → Except ArithmeticFault Bool
  | [] => .ok true
  | (x, y) :: rest => do
    if ← close x y then allPairs close rest else return false

/-- Whether a comparison holds for all pairs of components. -/
def closeBy (close : V → V → Except ArithmeticFault Bool) (a b : Vector V n) :
    Except ArithmeticFault Bool :=
  allPairs close (a.toList.zip b.toList)

end Column

namespace Primitive

variable {P V : Type} {n : Nat} [Primitive P V n]

/-- Whether all components differ by at most `tolerance`. -/
def absoluteClose [AbsoluteCloseness V] (p q : P) (tolerance : V) :
    Except ArithmeticFault Bool :=
  Column.closeBy (fun x y => AbsoluteCloseness.close x y tolerance) (components p) (components q)

end Primitive

namespace Primitive

variable {P : Type} {f : Format} {n : Nat} [Primitive P (Binary f) n]

/-- Whether all components are close in relation to their size. -/
def relativeClose (p q : P) (tolerance relative : Binary f) : Bool :=
  ((components p).toList.zip (components q).toList).all fun (x, y) =>
    x.relativeClose y tolerance relative

/-- Whether all components are at most `units` representable values apart. -/
def unitsClose (p q : P) (tolerance : Binary f) (units : Nat) : Bool :=
  ((components p).toList.zip (components q).toList).all fun (x, y) =>
    x.unitsClose y tolerance units

end Primitive

end RenderKernel
