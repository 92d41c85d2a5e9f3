import RenderKernel.Decimal.Literal

/-!
# The shortest decimal that reads back

`Binary.shortest tie x` is a decimal with as few significant digits as possible among those
whose nearest number of the format is `x`; of two such decimals it is the one nearer to the
value of `x`, and `tie` decides between two equally near ones.

On the grid of decimals with a given number of digits only the two neighbours of the value
matter: if any point of the grid reads back as `x`, one of them does.  The grids are tried
from the coarsest on, and a decimal is taken only if reading it gives `x`.  With enough digits
there is such a decimal for every finite number, so the exact expansion, which stands for a
search without a result, is never taken.
-/

namespace RenderKernel.Decimal

/-- Which of two equally near decimals is taken. -/
inductive Tie where
  /-- The one whose last digit is even. -/
  | even
  /-- The greater one. -/
  | up
deriving DecidableEq, Repr

/-- Chooses between the integers `low` and `low + 1` for a value between them: the nearer one,
or by `tie` if the value is in the middle. -/
def Tie.nearer (tie : Tie) (r : Ratio) (low : Nat) : Nat :=
  let twice := 2 * (r.num - low * r.den)
  if twice < r.den then low
  else if r.den < twice then low + 1
  else match tie with
    | .even => if low % 2 = 0 then low else low + 1
    | .up => low + 1

/-- Whether the decimal `n * 10 ^ e` reads back as the given magnitude. -/
def readsBack (f : Format) (magnitude n : Nat) (e : Int) : Bool :=
  Literal.magnitude f ⟨false, n, e⟩ == magnitude

/-- The neighbour of a positive ratio on the grid of `digits` significant digits that reads
back as the given magnitude, the nearer one if both do. -/
def neighbour (f : Format) (tie : Tie) (magnitude : Nat) (r : Ratio) (digits : Nat) :
    Option (Nat × Int) :=
  let e := r.floorLog10 + 1 - digits
  let s := r.scale10 (-e)
  let low := s.floor
  match readsBack f magnitude low e, readsBack f magnitude (low + 1) e with
  | false, false => none
  | true, false => some (low, e)
  | false, true => some (low + 1, e)
  | true, true => some (tie.nearer s low, e)

/-- A number of significant digits with which every number of the format can be told from its
neighbours: `17` for the format of 64 bits and `9` for that of 32 bits. -/
def enoughDigits (f : Format) : Nat := (f.fractionBits + 1) * 30103 / 100000 + 2

/-- The integer `m * 2 ^ q` or, for negative `q`, the decimal with `-q` places that is equal
to it. -/
def expansion (m : Nat) (q : Int) : Nat × Int :=
  if 0 ≤ q then (m * Nat.pow 2 q.toNat, 0) else (m * Nat.pow 5 (-q).toNat, q)

/-- Moves the zeros that end a coefficient into the exponent. -/
def stripZeros (n : Nat) (e : Int) : Nat × Int :=
  go (digitCount n) n e
where
  go : Nat → Nat → Int → Nat × Int
    | 0, n, e => (n, e)
    | fuel + 1, n, e => if n % 10 = 0 then go fuel (n / 10) (e + 1) else (n, e)

end RenderKernel.Decimal

namespace RenderKernel

namespace Binary

open Decimal

variable {f : Format}

/-- The shortest decimal that reads back as a finite number, the nearest one of that length;
zero is spelled `0`. -/
def shortest (tie : Tie) (x : Binary f) : Literal :=
  if x.magnitude = 0 then
    ⟨x.negative, 0, 0⟩
  else
    let (n, e) := ((List.range' 1 (enoughDigits f)).findSome?
      (neighbour f tie x.magnitude x.ratio)).getD (expansion x.significand x.exponent)
    let (n, e) := stripZeros n e
    ⟨x.negative, n, e⟩

end Binary

end RenderKernel
