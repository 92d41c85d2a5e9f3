/-!
# Non-negative ratios

A `Ratio` is a quotient of two natural numbers with a positive denominator, not in lowest
terms.  Three questions are asked of it, each answered exactly: the ratio scaled by a power
of a base, the natural number nearest to it (`nearest`, a half goes to the even neighbour),
and the exponent of the greatest power of a base that it reaches (`floorLog`).
-/

namespace RenderKernel

/-- A non-negative rational number, written as a quotient. -/
structure Ratio where
  num : Nat
  den : Nat
  den_pos : 0 < den

namespace Ratio

/-- A natural number as a ratio. -/
def ofNat (n : Nat) : Ratio := ⟨n, 1, Nat.one_pos⟩

/-- The ratio times `base ^ k`; the exponent may be negative. -/
def scale (r : Ratio) (base : Nat) (hbase : 0 < base) (k : Int) : Ratio :=
  if 0 ≤ k then
    ⟨r.num * Nat.pow base k.toNat, r.den, r.den_pos⟩
  else
    ⟨r.num, r.den * Nat.pow base (-k).toNat, Nat.mul_pos r.den_pos (Nat.pow_pos hbase)⟩

/-- The ratio times a power of two. -/
abbrev scale2 (r : Ratio) (k : Int) : Ratio := r.scale 2 (by decide) k

/-- The ratio times a power of ten. -/
abbrev scale10 (r : Ratio) (k : Int) : Ratio := r.scale 10 (by decide) k

/-- The greatest natural number that is not above the ratio. -/
def floor (r : Ratio) : Nat := r.num / r.den

/-- The natural number nearest to the ratio; a half goes to the even neighbour. -/
def nearest (r : Ratio) : Nat :=
  let below := r.num / r.den
  let rest := r.num % r.den
  if 2 * rest < r.den ∨ (2 * rest = r.den ∧ below % 2 = 0) then below else below + 1

/-- The product of two ratios. -/
def mul (r s : Ratio) : Ratio := ⟨r.num * s.num, r.den * s.den, Nat.mul_pos r.den_pos s.den_pos⟩

/-- The exponent of the greatest power of `base` up to a positive `n`: one less than the
number of digits of `n`.  Each step removes a digit, so `n` steps are more than enough. -/
def digitLog (base : Nat) (n : Nat) : Nat :=
  go n n
where
  go : Nat → Nat → Nat
    | 0, _ => 0
    | fuel + 1, n => if n < base then 0 else go fuel (n / base) + 1

/-- The integer `k` with `base ^ k ≤ r < base ^ (k + 1)`, for a positive ratio `r`; `log` is
the same exponent for natural numbers. -/
def floorLogWith (log : Nat → Nat) (base : Nat) (r : Ratio) : Int :=
  if r.den ≤ r.num then
    log (r.num / r.den)
  else
    let k := log (r.den / r.num)
    if r.num * Nat.pow base k = r.den then -(k : Int) else -(k : Int) - 1

/-- The exponent of the greatest power of two up to a positive ratio. -/
def floorLog2 (r : Ratio) : Int := r.floorLogWith Nat.log2 2

/-- The exponent of the greatest power of ten up to a positive ratio. -/
def floorLog10 (r : Ratio) : Int := r.floorLogWith (digitLog 10) 10

end Ratio

end RenderKernel
