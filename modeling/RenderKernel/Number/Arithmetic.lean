import RenderKernel.Number.Operations
import RenderKernel.Number.Rounding

/-!
# Arithmetic of binary floating-point numbers

The result of an operation on finite numbers is the exact result, rounded once to the nearest
number of the format.  Infinite operands follow the limits; where there is no limit, or an
operand is no number, the result is no number.  Zeros are signed: an exact zero sum is
positive, unless both operands are negative zeros, and products and quotients take the sign of
their operands.
-/

namespace RenderKernel.Binary

variable {f : Format}

/-- The number with the opposite sign. -/
def negate (x : Binary f) : Binary f := { x with negative := !x.negative }

/-- The number without its sign. -/
def absolute (x : Binary f) : Binary f := { x with negative := false }

/-- The signed integer `± significand`. -/
def signedSignificand (x : Binary f) : Int :=
  if x.negative then -(x.significand : Int) else x.significand

/-- The sum of two finite numbers.  Both are integers in the lesser of their last places. -/
def addFinite (x y : Binary f) : Binary f :=
  let q := min x.exponent y.exponent
  let n := x.signedSignificand * Nat.pow 2 (x.exponent - q).toNat
    + y.signedSignificand * Nat.pow 2 (y.exponent - q).toNat
  if n = 0 then
    zero (x.negative && y.negative)
  else
    nearest (n < 0) ((Ratio.ofNat n.natAbs).scale2 q)

/-- The sum. -/
def add (x y : Binary f) : Binary f :=
  if x.isNaN || y.isNaN then nan
  else if x.isInfinite then
    if y.isInfinite && x.negative != y.negative then nan else x
  else if y.isInfinite then y
  else addFinite x y

/-- The difference. -/
def sub (x y : Binary f) : Binary f := add x (negate y)

/-- The product. -/
def mul (x y : Binary f) : Binary f :=
  let negative := x.negative != y.negative
  if x.isNaN || y.isNaN then nan
  else if x.isInfinite || y.isInfinite then
    if x.isZero || y.isZero then nan else infinity negative
  else
    nearest negative
      ((Ratio.ofNat (x.significand * y.significand)).scale2 (x.exponent + y.exponent))

/-- The quotient of two finite numbers, the second one not zero. -/
def divFinite (x y : Binary f) : Binary f :=
  let negative := x.negative != y.negative
  if h : 0 < y.significand then
    let quotient : Ratio := ⟨x.significand, y.significand, h⟩
    nearest negative (quotient.scale2 (x.exponent - y.exponent))
  else
    infinity negative

/-- The quotient. -/
def div (x y : Binary f) : Binary f :=
  let negative := x.negative != y.negative
  if x.isNaN || y.isNaN then nan
  else if x.isInfinite then
    if y.isInfinite then nan else infinity negative
  else if y.isInfinite then zero negative
  else if y.isZero then
    if x.isZero then nan else infinity negative
  else divFinite x y

/-- The greatest natural number whose square is not above `n`, found two bits of `n` at a
time. -/
def naturalRoot (n : Nat) : Nat :=
  go (n.log2 / 2 + 1) n
where
  go : Nat → Nat → Nat
    | 0, _ => 0
    | fuel + 1, n =>
      if n = 0 then
        0
      else
        let r := 2 * go fuel (n / 4)
        if (r + 1) * (r + 1) ≤ n then r + 1 else r

/-- The square root of a positive finite number.  The root of the significand, extended by
enough bits, is known to within one unit that no boundary between two roundings crosses; a
root that is not exact is replaced by the middle of its unit, which is rounded as it is. -/
def sqrtFinite (x : Binary f) : Binary f :=
  let extra : Nat := 2 * f.fractionBits + 6
  let shift : Nat := extra + ((x.exponent - extra) % 2).toNat
  let n := x.significand * Nat.pow 2 shift
  let root := naturalRoot n
  let half := (x.exponent - shift) / 2
  if root * root = n then
    nearest false ((Ratio.ofNat root).scale2 half)
  else
    nearest false ((Ratio.ofNat (2 * root + 1)).scale2 (half - 1))

/-- The square root; that of a negative zero is the negative zero. -/
def root (x : Binary f) : Binary f :=
  if x.isNaN then nan
  else if x.isZero then x
  else if x.negative then nan
  else if x.isInfinite then x
  else sqrtFinite x

/-- The greater of two numbers; one that is no number gives way to the other one. -/
def maximum (x y : Binary f) : Binary f :=
  if x.isNaN then y
  else if y.isNaN then x
  else if x.less y then y
  else x

/-- The number one. -/
def one : Binary f := nearest false (Ratio.ofNat 1)

instance : Zero (Binary f) := ⟨zero false⟩
instance : One (Binary f) := ⟨one⟩
instance : Neg (Binary f) := ⟨negate⟩
instance : Add (Binary f) := ⟨add⟩
instance : Sub (Binary f) := ⟨sub⟩
instance : Mul (Binary f) := ⟨mul⟩
instance : Div (Binary f) := ⟨div⟩
instance : Max (Binary f) := ⟨maximum⟩
instance : SquareRoot (Binary f) := ⟨root⟩
instance : Modulus (Binary f) := ⟨absolute⟩

end RenderKernel.Binary
