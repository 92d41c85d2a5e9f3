import RenderKernel.Geometry.Matrix
import RenderKernel.Log

/-!
# Transforms

A `Transform` is a homogeneous matrix kept together with its inverse.  Vectors see only its
linear part, points see all of it and are divided by their last coordinate afterwards, and
normals see the transposed linear part of the inverse.

The inverse is computed once, from a matrix, or known from the start; products and inverses
of transforms only rearrange what is kept.
-/

namespace RenderKernel

universe u

/-- A homogeneous matrix and its inverse. -/
@[ext] structure Transform (S : Type u) where
  matrix : Matrix4 S
  inverseMatrix : Matrix4 S
deriving DecidableEq

/-- Why a transform cannot be built. -/
inductive TransformFault where
  | singular
deriving DecidableEq, Repr

/-- The text that reports a fault. -/
def TransformFault.message : TransformFault → String
  | .singular => "Transform matrix is singular"

namespace Transform

variable {S : Type u}

/-- Equality of the matrices and of the inverses. -/
def equal [BEq S] (t t' : Transform S) : Bool :=
  t.matrix.equal t'.matrix && t.inverseMatrix.equal t'.inverseMatrix

/-! ### Constructors -/

/-- The transform that leaves everything as it is. -/
def identity [Zero S] [One S] : Transform S := ⟨.identity, .identity⟩

/-- The transform of a matrix that has an inverse. -/
def ofMatrix [Add S] [Sub S] [Mul S] [Neg S] [Zero S] [One S] [Div S] [BEq S]
    (m : Matrix4 S) : Except TransformFault (Transform S) :=
  match m.inverse? with
  | some n => .ok ⟨m, n⟩
  | none => .error .singular

/-- The transform of a matrix; a refusal is recorded. -/
def ofMatrixLogged [Add S] [Sub S] [Mul S] [Neg S] [Zero S] [One S] [Div S] [BEq S]
    (m : Matrix4 S) : Logged (Except TransformFault (Transform S)) :=
  match ofMatrix m with
  | .ok t => ⟨.ok t, []⟩
  | .error fault =>
    ⟨.error fault, [⟨.debug, "refusing to build a transform from a singular matrix"⟩]⟩

/-- The transform of a matrix whose inverse is known.  The pair is not checked. -/
def ofMatrixInverse (m n : Matrix4 S) : Transform S := ⟨m, n⟩

/-- The translation by a vector. -/
def translate [Zero S] [One S] [Neg S] (a : Vec S 3) : Transform S :=
  ⟨.translation a, .translation (-a)⟩

/-- The scaling along the axes, unless a factor is zero. -/
def scale [Zero S] [One S] [Div S] [BEq S] (a : Vec S 3) : Except TransformFault (Transform S) :=
  if a.components.any (· == 0) then
    .error .singular
  else
    .ok ⟨.scaling a, .scaling (.of₃ (1 / a.x) (1 / a.y) (1 / a.z))⟩

/-- The rotation around an axis, counter-clockwise; an angle of zero leaves everything as it
is. -/
def rotate [Zero S] [One S] [Add S] [Sub S] [Mul S] [Div S] [BEq S] [SquareRoot S] [Circular S]
    (axis : Vec S 3) (angle : S) : Transform S :=
  let m : Matrix4 S :=
    if angle == 0 then .identity
    else .rotation axis.normalize (Circular.sin angle) (Circular.cos angle)
  ⟨m, m.transpose⟩

/-- The transform that undoes this one. -/
def inverse (t : Transform S) : Transform S := ⟨t.inverseMatrix, t.matrix⟩

/-- The transform that applies the second one first. -/
def mul [Add S] [Mul S] (t t' : Transform S) : Transform S :=
  ⟨t.matrix * t'.matrix, t'.inverseMatrix * t.inverseMatrix⟩

instance [Add S] [Mul S] : Mul (Transform S) := ⟨mul⟩

/-! ### Application -/

/-- The image of a vector: the linear part alone. -/
def applyVec [Add S] [Mul S] (t : Transform S) (a : Vec S 3) : Vec S 3 :=
  ⟨t.matrix.mulLinear a.x a.y a.z⟩

/-- The image of a point in homogeneous coordinates. -/
def applyHomogeneous [Add S] [Mul S] [One S] (t : Transform S) (p : Point S 3) : Quad S :=
  t.matrix.mulQuad ⟨p.coords.x, p.coords.y, p.coords.z, 1⟩

/-- The image of a point: the whole matrix, then the division by the last coordinate. -/
def applyPoint [Add S] [Mul S] [One S] [Div S] (t : Transform S) (p : Point S 3) : Point S 3 :=
  let h := t.applyHomogeneous p
  .of₃ (h.x / h.w) (h.y / h.w) (h.z / h.w)

/-- The image of a normal: the transposed linear part of the inverse. -/
def applyNormal [Add S] [Mul S] (t : Transform S) (n : Normal S) : Normal S :=
  ⟨t.inverseMatrix.transpose.mulLinear n.x n.y n.z⟩

end Transform

/-! ### Texts -/

namespace Matrix4

variable {V : Type} [Legible V]

/-- The matrix with at most `digits` significant digits in each cell. -/
def display (digits : Nat) (m : Matrix4 V) : Except FormatFault String := m.toGrid.block digits

/-- The matrix in full, column by column. -/
def full (m : Matrix4 V) : String :=
  let column (q : Quad V) : String := "[" ++ ", ".intercalate (q.toList.map Legible.full) ++ "]"
  "[" ++ ", ".intercalate [column m.col₀, column m.col₁, column m.col₂, column m.col₃] ++ "]"

end Matrix4

namespace Transform

variable {V : Type} [Legible V]

/-- The matrix with at most `digits` significant digits in each cell. -/
def display (digits : Nat) (t : Transform V) : Except FormatFault String :=
  t.matrix.display digits

/-- The transform in full. -/
def full (t : Transform V) : String :=
  "Transform \x7b matrix: " ++ t.matrix.full ++ ", inverse: " ++ t.inverseMatrix.full ++ " \x7d"

end Transform

end RenderKernel
