import RenderKernel.Number.Ratio

/-!
# Decimal digits

The digits of a natural number as characters, padded with zeros to a width (`padded`) or
without padding (`plain`), the text of a ratio rounded to a number of places (`fixedText`),
and the rounding of a ratio to a number of significant digits (`roundSignificant`).  Both
roundings are exact and send a half to the even neighbour.
-/

namespace RenderKernel.Decimal

/-- The `width` last decimal digits of `n`, leading zeros included.  The two halves of the
digits are found from the quotient and the remainder by one power of ten, so that long texts
need few long divisions; `width` halvings are more than enough. -/
def padded (width n : Nat) : List Char :=
  go width width n
where
  go : Nat → Nat → Nat → List Char
    | 0, _, _ => []
    | fuel + 1, width, n =>
      if width = 0 then
        []
      else if width = 1 then
        [Nat.digitChar (n % 10)]
      else
        let low := width / 2
        go fuel (width - low) (n / Nat.pow 10 low) ++ go fuel low (n % Nat.pow 10 low)

/-- How many decimal digits `n` has; zero has one. -/
def digitCount (n : Nat) : Nat := Ratio.digitLog 10 n + 1

/-- The decimal digits of `n`, the first one not zero unless `n` is. -/
def plain (n : Nat) : List Char := padded (digitCount n) n

/-- The number that a list of decimal digits spells. -/
def ofDigits (ds : List Char) : Nat := ds.foldl (fun n d => 10 * n + (d.toNat - '0'.toNat)) 0

/-- Digits with a decimal point before the last `places` of them; no point if there are no
places. -/
def pointed (whole fraction : List Char) : List Char :=
  if fraction.isEmpty then whole else whole ++ '.' :: fraction

/-- The ratio rounded to a multiple of `10 ^ (-places)`, written with exactly that many digits
after the point. -/
def fixedText (places : Nat) (r : Ratio) : List Char :=
  let n := (r.scale10 places).nearest
  pointed (plain (n / Nat.pow 10 places)) (padded places (n % Nat.pow 10 places))

/-- A positive ratio rounded to `digits` significant digits: the integer that they spell, and
the exponent of the first of them.  Rounding up to the next power of ten moves the exponent. -/
def roundSignificant (digits : Nat) (r : Ratio) : Nat × Int :=
  let e := r.floorLog10
  let n := (r.scale10 (digits - 1 - e)).nearest
  if n = Nat.pow 10 digits then (Nat.pow 10 (digits - 1), e + 1) else (n, e)

/-- A text without the zeros that end its fraction, and without a point that nothing follows;
a text without a point is left as it is. -/
def trimFraction (cs : List Char) : List Char :=
  if cs.contains '.' then
    ((cs.reverse.dropWhile (· == '0')).dropWhile (· == '.')).reverse
  else
    cs

end RenderKernel.Decimal
