import RenderKernel.Geometry.Normal

/-!
# Shading frames

A `Frame` has two tangents and a normal.  In its local coordinates the normal lies along the
third axis, so that the angle between a direction and the normal can be read off the third
coordinate.  A frame around a normal is found by completing the normal to a right-handed
orthonormal basis.
-/

namespace RenderKernel

universe u

variable {S : Type u}

/-- Two further vectors that complete a unit vector to a right-handed orthonormal basis.  The
last one lies in the plane of the third axis and the greater of the first two, so that its
length is not close to zero. -/
def Vec.completeBasis [Add S] [Sub S] [Mul S] [Div S] [Neg S] [Zero S] [One S] [LT S]
    [DecidableLT S] [SquareRoot S] [Modulus S] (a : Vec S 3) : Vec S 3 × Vec S 3 :=
  let x := a.x
  let y := a.y
  let z := a.z
  let c : Vec S 3 :=
    if modulus y < modulus x then
      let k := 1 / sqrt (x * x + z * z)
      .of₃ (z * k) 0 (-x * k)
    else
      let k := 1 / sqrt (y * y + z * z)
      .of₃ 0 (z * k) (-y * k)
  (c.cross a, c)

/-- A shading frame: two tangents and the normal. -/
structure Frame (S : Type u) where
  s : Vec S 3
  t : Vec S 3
  n : Normal S

namespace Frame

/-- The frame around a unit normal. -/
def ofNormal [Add S] [Sub S] [Mul S] [Div S] [Neg S] [Zero S] [One S] [LT S] [DecidableLT S]
    [SquareRoot S] [Modulus S] (n : Normal S) : Frame S :=
  let (s, t) := n.toVec.completeBasis
  ⟨s, t, n⟩

/-- The local coordinates of a vector. -/
def toLocal [Add S] [Mul S] [Zero S] (f : Frame S) (a : Vec S 3) : Vec S 3 :=
  .of₃ (a.dot f.s) (a.dot f.t) (f.n.dotVec a)

/-- The vector with given local coordinates. -/
def toWorld [Add S] [Mul S] (f : Frame S) (a : Vec S 3) : Vec S 3 :=
  f.s * a.x + f.t * a.y + f.n.toVec * a.z

/-- Equality of all components. -/
def equal [BEq S] (f g : Frame S) : Bool :=
  Primitive.equal f.s g.s && Primitive.equal f.t g.t && Primitive.equal f.n g.n

/-! ### Angles of local directions -/

/-- The cosine of the angle between a local direction and the normal. -/
def cosTheta (a : Vec S 3) : S := a.z

/-- The square of the sine of the angle between a local direction and the normal; rounding
does not make it negative. -/
def sinTheta2 [Sub S] [Mul S] [Zero S] [One S] [Max S] (a : Vec S 3) : S := max (1 - a.z * a.z) 0

/-- The sine of the angle between a local direction and the normal. -/
def sinTheta [Sub S] [Mul S] [Zero S] [One S] [Max S] [SquareRoot S] (a : Vec S 3) : S :=
  sqrt (sinTheta2 a)

/-- The frame in full. -/
def full {V : Type} [Legible V] (f : Frame V) : String :=
  "Frame \x7b s: " ++ Primitive.full f.s ++ ", t: " ++ Primitive.full f.t ++ ", n: "
    ++ Primitive.full f.n ++ " \x7d"

end Frame

end RenderKernel
