import RenderKernel.Decimal.Digits
import RenderKernel.Number.Rounding

/-!
# Decimal literals

A `Literal` is a decimal number as a text spells it, `± coefficient * 10 ^ exponent`, the sign
of zero included.  `Literal.toBinary` is the number of a binary format nearest to it, with a
single rounding.

A literal of many digits can be clipped to its first ones with a digit `1` for the rest.  If
the rest is not zero and `middleDigits` of the format are kept, the same number is nearest: no
middle between two neighbours has more digits, so that none lies between a literal and the
clipped one.

Exponents in texts are unbounded, so literals far outside the range of the format are decided
by the place of their first digit, before any power of ten is formed.
-/

namespace RenderKernel.Decimal

/-- A decimal number as a text spells it: `± coefficient * 10 ^ exponent`. -/
structure Literal where
  negative : Bool
  coefficient : Nat
  exponent : Int
deriving DecidableEq, Repr

namespace Literal

/-- The absolute value of a literal. -/
def ratio (l : Literal) : Ratio := (Ratio.ofNat l.coefficient).scale10 l.exponent

/-- The exponent of the power of ten just above a literal that is not zero. -/
def top (l : Literal) : Int := digitCount l.coefficient + l.exponent

/-- The magnitude of a format that is nearest to a literal.  A value of at least
`2 ^ 2 ^ (exponentBits - 1)` is beyond the greatest finite number; one below half the least
positive number is rounded to zero. -/
def magnitude (f : Format) (l : Literal) : Nat :=
  if l.coefficient = 0 then 0
  else if Nat.pow 2 (f.exponentBits - 1) < l.top then f.infinity
  else if l.top < f.leastExponent then 0
  else f.nearest l.ratio

/-- The number of a format that is nearest to a literal, ties to the even magnitude. -/
def toBinary {f : Format} (l : Literal) : Binary f := Binary.saturate l.negative (l.magnitude f)

/-- A literal with at most `digits` digits, behind which a digit `1` stands for the others. -/
def clip (digits : Nat) (l : Literal) : Literal :=
  let surplus := digitCount l.coefficient - digits
  if surplus = 0 then
    l
  else
    ⟨l.negative, 10 * (l.coefficient / Nat.pow 10 surplus) + 1, l.exponent + surplus - 1⟩

end Literal

/-- The greatest number of digits of a middle between two neighbouring numbers of a format:
`113` for the format of 32 bits and `768` for that of 64 bits. -/
def middleDigits (f : Format) : Nat :=
  ((f.fractionBits + 2) * 30103 + (1 - f.leastExponent).toNat * 69897) / 100000 + 1

end RenderKernel.Decimal
