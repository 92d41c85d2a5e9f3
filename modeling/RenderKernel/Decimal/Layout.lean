import RenderKernel.Decimal.Shortest

/-!
# Layouts of decimal numbers

A `Layout` says how a shortest decimal is written: which decimal exponents are written
positionally, whether a scientific exponent carries a plus sign, and which of two equally
near decimals is meant.  Positional numbers have at least one digit on each side of the point;
scientific ones have a point only before further digits.
-/

namespace RenderKernel.Decimal

/-- The conventions by which a finite number is written. -/
structure Layout where
  /-- Whether a number whose first digit has this exponent is written positionally. -/
  positional : Int → Bool
  /-- Whether exponents that are not negative carry a plus sign. -/
  plus : Bool
  tie : Tie

namespace Layout

/-- Digits whose first one has the exponent `e`, with a point and at least one digit on each
side of it. -/
def positionalText (ds : List Char) (e : Int) : List Char :=
  if e < 0 then
    '0' :: '.' :: List.replicate (-e - 1).toNat '0' ++ ds
  else
    let whole := e.toNat + 1
    if ds.length ≤ whole then
      ds ++ List.replicate (whole - ds.length) '0' ++ ['.', '0']
    else
      ds.take whole ++ '.' :: ds.drop whole

/-- Digits with a point behind the first one, if there are others, and the exponent. -/
def scientificText (plus : Bool) (ds : List Char) (e : Int) : List Char :=
  let sign := if e < 0 then ['-'] else if plus then ['+'] else []
  pointed (ds.take 1) (ds.drop 1) ++ 'e' :: sign ++ plain e.natAbs

/-- A decimal literal in the layout. -/
def literalText (layout : Layout) (l : Literal) : List Char :=
  let ds := plain l.coefficient
  let e : Int := ds.length - 1 + l.exponent
  let body :=
    if layout.positional e then positionalText ds e else scientificText layout.plus ds e
  if l.negative then '-' :: body else body

/-- The shortest text, in the layout, of a finite number. -/
def finiteText {f : Format} (layout : Layout) (x : Binary f) : List Char :=
  layout.literalText (x.shortest layout.tie)

end Layout

end RenderKernel.Decimal
