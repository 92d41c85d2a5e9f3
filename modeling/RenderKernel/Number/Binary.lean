import RenderKernel.Number.Ratio

/-!
# Binary floating-point numbers

A `Format` fixes the widths of the exponent and the fraction of a binary interchange format;
`single` and `double` are the two in use.  A number of a format is a sign and a *magnitude*:
the bit pattern without its sign bit, read as a natural number.  Magnitudes are ordered as
the absolute values that they stand for, zero first, infinity after every finite value and
the patterns that are no number after infinity.

A finite magnitude stands for `significand * 2 ^ exponent`.  Magnitudes below
`2 ^ fractionBits` are the subnormal ones: they share the least exponent and have no leading
bit.
-/

namespace RenderKernel

/-- The widths of the two fields of a magnitude. -/
structure Format where
  exponentBits : Nat
  fractionBits : Nat
deriving DecidableEq

namespace Format

/-- The format of 32 bits. -/
def single : Format := ⟨8, 23⟩

/-- The format of 64 bits. -/
def double : Format := ⟨11, 52⟩

/-- The number of bits of a pattern, its sign bit included. -/
def width (f : Format) : Nat := 1 + f.exponentBits + f.fractionBits

/-- How many magnitudes there are. -/
def magnitudes (f : Format) : Nat := Nat.pow 2 (f.exponentBits + f.fractionBits)

theorem magnitudes_pos (f : Format) : 0 < f.magnitudes := Nat.two_pow_pos _

/-- How many magnitudes share an exponent: one for each fraction. -/
def fractions (f : Format) : Nat := Nat.pow 2 f.fractionBits

theorem fractions_pos (f : Format) : 0 < f.fractions := Nat.two_pow_pos _

/-- The magnitude of infinity: every exponent bit set, no fraction bit. -/
def infinity (f : Format) : Nat := (Nat.pow 2 f.exponentBits - 1) * f.fractions

/-- The exponent of the last bit of subnormal numbers, the least of the format. -/
def leastExponent (f : Format) : Int := 2 - Nat.pow 2 (f.exponentBits - 1) - f.fractionBits

theorem infinity_lt (f : Format) :
  f.infinity < f.magnitudes
  := by
  have h : 0 < Nat.pow 2 f.exponentBits := Nat.two_pow_pos _
  have hsplit : f.magnitudes = Nat.pow 2 f.exponentBits * f.fractions := Nat.pow_add 2 _ _
  rw [infinity, hsplit]
  apply Nat.mul_lt_mul_of_pos_right _ f.fractions_pos
  apply Nat.sub_lt h Nat.one_pos

end Format

/-- A floating-point number: a sign and a magnitude of the format. -/
structure Binary (f : Format) where
  negative : Bool
  magnitude : Nat
  magnitude_lt : magnitude < f.magnitudes
deriving DecidableEq

namespace Binary

variable {f : Format}

/-! ### Special values -/

/-- Zero with the given sign. -/
def zero (negative : Bool) : Binary f := ⟨negative, 0, f.magnitudes_pos⟩

/-- Infinity with the given sign. -/
def infinity (negative : Bool) : Binary f := ⟨negative, f.infinity, f.infinity_lt⟩

/-- The number whose magnitude is the given one; every one from infinity's on becomes
infinity. -/
def saturate (negative : Bool) (magnitude : Nat) : Binary f :=
  ⟨negative, min magnitude f.infinity, Nat.lt_of_le_of_lt (Nat.min_le_right _ _) f.infinity_lt⟩

/-- A pattern that is no number: the last magnitude. -/
def nan : Binary f := ⟨false, f.magnitudes - 1, Nat.sub_lt f.magnitudes_pos Nat.one_pos⟩

/-- Whether the pattern is no number. -/
def isNaN (x : Binary f) : Bool := f.infinity < x.magnitude

/-- Whether the number is infinite, of either sign. -/
def isInfinite (x : Binary f) : Bool := x.magnitude == f.infinity

/-- Whether the pattern is a number and not infinite. -/
def isFinite (x : Binary f) : Bool := x.magnitude < f.infinity

/-- Whether the number is zero, of either sign. -/
def isZero (x : Binary f) : Bool := x.magnitude == 0

/-! ### The value of a finite number -/

/-- The field of the magnitude above the fraction: zero for subnormal numbers. -/
def biasedExponent (x : Binary f) : Nat := x.magnitude / f.fractions

/-- The integer `m` of the absolute value `m * 2 ^ exponent`. -/
def significand (x : Binary f) : Nat :=
  if x.biasedExponent = 0 then
    x.magnitude
  else
    f.fractions + x.magnitude % f.fractions

/-- The exponent `q` of the absolute value `significand * 2 ^ q`. -/
def exponent (x : Binary f) : Int := f.leastExponent + (x.biasedExponent - 1 : Nat)

/-- The absolute value of a finite number. -/
def ratio (x : Binary f) : Ratio := (Ratio.ofNat x.significand).scale2 x.exponent

/-! ### Bit patterns -/

/-- The bit pattern, its sign bit first. -/
def toBits (x : Binary f) : Nat := (if x.negative then f.magnitudes else 0) + x.magnitude

/-- The number of a bit pattern; bits beyond the width of the format are dropped. -/
def ofBits (bits : Nat) : Binary f :=
  ⟨bits / f.magnitudes % 2 == 1, bits % f.magnitudes, Nat.mod_lt _ f.magnitudes_pos⟩

/-! ### Order -/

/-- A signed integer that orders the numbers as their values; both zeros have key `0`. -/
def key (x : Binary f) : Int := if x.negative then -(x.magnitude : Int) else x.magnitude

/-- Equality of values: the zeros are equal, and a pattern that is no number equals nothing. -/
def equal (x y : Binary f) : Bool := !x.isNaN && !y.isNaN && x.key == y.key

/-- Order of values; it fails if either side is no number. -/
def less (x y : Binary f) : Bool := !x.isNaN && !y.isNaN && decide (x.key < y.key)

/-- Order of values or equality; it fails if either side is no number. -/
def lessEqual (x y : Binary f) : Bool := !x.isNaN && !y.isNaN && decide (x.key ≤ y.key)

instance : BEq (Binary f) := ⟨equal⟩

instance : LT (Binary f) := ⟨fun x y => x.less y = true⟩

instance : LE (Binary f) := ⟨fun x y => x.lessEqual y = true⟩

instance : DecidableLT (Binary f) := fun x y => inferInstanceAs (Decidable (x.less y = true))

instance : DecidableLE (Binary f) := fun x y => inferInstanceAs (Decidable (x.lessEqual y = true))

end Binary

end RenderKernel
