import RenderKernel.Number.Binary

/-!
# Rounding to a binary format

`Format.nearest f r` is the magnitude of the format that is nearest to the ratio `r`, a tie
going to the even magnitude; from half a unit above the greatest finite value on it is
infinity.  Arithmetic, conversion between formats and the reading of decimal text all round
through it, once each.

The last bit of the result has the exponent of the leading bit of `r` less the width of the
fraction, but no less than the least exponent of the format.  Counted from the least exponent,
`2 ^ fractionBits` magnitudes per exponent, the rounded integer is the offset of the result,
and a carry into the next exponent comes out right by itself.
-/

namespace RenderKernel

namespace Format

/-- The exponent of the last bit to which a positive ratio is rounded. -/
def lastExponent (f : Format) (r : Ratio) : Int :=
  max (r.floorLog2 - f.fractionBits) f.leastExponent

/-- The magnitude nearest to a ratio, ties to the even one. -/
def nearest (f : Format) (r : Ratio) : Nat :=
  if r.num = 0 then
    0
  else
    let q := f.lastExponent r
    min ((q - f.leastExponent).toNat * f.fractions + (r.scale2 (-q)).nearest) f.infinity

end Format

namespace Binary

variable {f g : Format}

/-- The number nearest to the ratio, with the given sign. -/
def nearest (negative : Bool) (r : Ratio) : Binary f := saturate negative (f.nearest r)

/-- The number of another format that is nearest to this one. -/
def convert (x : Binary f) : Binary g :=
  if x.isNaN then nan
  else if x.isInfinite then infinity x.negative
  else nearest x.negative x.ratio

end Binary

end RenderKernel
