import RenderKernel.Decimal.Layout
import RenderKernel.Number.Integer
import RenderKernel.Text.Shown

/-!
# Texts of numbers

The two texts that every number of geometry has: with a limited number of significant digits,
for people, and in full, for inspection.  Integers are written by their digits in both.
-/

namespace RenderKernel

/-- Numbers that can be shown. -/
class Legible (V : Type) where
  /-- The number with at most so many significant digits. -/
  significantText : Nat → V → Except FormatFault (List Char)
  /-- The number in full. -/
  fullText : V → List Char

namespace Legible

/-- The number with at most so many significant digits. -/
def significant {V : Type} [Legible V] (digits : Nat) (x : V) : Except FormatFault String :=
  (significantText digits x).map String.ofList

/-- The number in full. -/
def full {V : Type} [Legible V] (x : V) : String := String.ofList (fullText x)

end Legible

/-- In full, numbers are positional from `1e-4` on and below `1e16`. -/
def fullLayout : Decimal.Layout where
  positional e := -4 ≤ e && e ≤ 15
  plus := false
  tie := .up

/-- The shortest decimal that reads back, or the name of what has none. -/
def Binary.fullText {f : Format} (x : Binary f) : List Char :=
  if x.isNaN then ['N', 'a', 'N']
  else if x.isInfinite then Significant.signed x.negative ['i', 'n', 'f']
  else fullLayout.finiteText x

/-- The digits of an integer behind its sign. -/
def Bounded.digits {k : IntegerKind} (x : Bounded k) : List Char :=
  Significant.signed (x.val < 0) (Decimal.plain x.val.natAbs)

/-- Numbers of every format are shown as numbers of 64 bits. -/
instance {f : Format} : Legible (Binary f) where
  significantText digits x := (x.convert : Binary .double).shownText digits
  fullText := Binary.fullText

instance {k : IntegerKind} : Legible (Bounded k) where
  significantText _ x := .ok x.digits
  fullText := Bounded.digits

end RenderKernel
