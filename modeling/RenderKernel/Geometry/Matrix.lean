import RenderKernel.Geometry.Normal
import RenderKernel.Geometry.Point

/-!
# Homogeneous matrices

Matrices of four rows and four columns, the products that they have with one another and with
homogeneous coordinates, and the inverse by cofactors.  Products of rows and columns are added
from the left, without a leading zero.

The inverse is the adjugate divided by the determinant; it exists exactly if the determinant is
not zero.
-/

namespace RenderKernel

universe u

/-- Four homogeneous coordinates. -/
@[ext] structure Quad (S : Type u) where
  x : S
  y : S
  z : S
  w : S
deriving DecidableEq

/-- A matrix of four rows. -/
@[ext] structure Matrix4 (S : Type u) where
  row₀ : Quad S
  row₁ : Quad S
  row₂ : Quad S
  row₃ : Quad S
deriving DecidableEq

namespace Quad

variable {S : Type u}

/-- The coordinates in order. -/
def toList (q : Quad S) : List S := [q.x, q.y, q.z, q.w]

/-- Equality of all coordinates. -/
def equal [BEq S] (p q : Quad S) : Bool := p.x == q.x && p.y == q.y && p.z == q.z && p.w == q.w

/-- The coordinates times a number. -/
def scale [Mul S] (q : Quad S) (k : S) : Quad S := ⟨q.x * k, q.y * k, q.z * k, q.w * k⟩

/-- The sum of the products of the coordinates. -/
def dot [Add S] [Mul S] (p q : Quad S) : S := p.x * q.x + p.y * q.y + p.z * q.z + p.w * q.w

end Quad

namespace Matrix4

variable {S : Type u}

/-! ### Parts -/

/-- The first column. -/
def col₀ (m : Matrix4 S) : Quad S := ⟨m.row₀.x, m.row₁.x, m.row₂.x, m.row₃.x⟩

/-- The second column. -/
def col₁ (m : Matrix4 S) : Quad S := ⟨m.row₀.y, m.row₁.y, m.row₂.y, m.row₃.y⟩

/-- The third column. -/
def col₂ (m : Matrix4 S) : Quad S := ⟨m.row₀.z, m.row₁.z, m.row₂.z, m.row₃.z⟩

/-- The fourth column. -/
def col₃ (m : Matrix4 S) : Quad S := ⟨m.row₀.w, m.row₁.w, m.row₂.w, m.row₃.w⟩

/-- The matrix with rows and columns exchanged. -/
def transpose (m : Matrix4 S) : Matrix4 S := ⟨m.col₀, m.col₁, m.col₂, m.col₃⟩

/-- The entries, row by row. -/
def toList (m : Matrix4 S) : List S :=
  m.row₀.toList ++ m.row₁.toList ++ m.row₂.toList ++ m.row₃.toList

/-- The matrix as a grid. -/
def toGrid (m : Matrix4 S) : Grid S 4 4 :=
  let row (q : Quad S) : Vector S 4 := #v[q.x, q.y, q.z, q.w]
  ⟨#v[row m.row₀, row m.row₁, row m.row₂, row m.row₃]⟩

/-- Equality of all entries. -/
def equal [BEq S] (m n : Matrix4 S) : Bool :=
  m.row₀.equal n.row₀ && m.row₁.equal n.row₁ && m.row₂.equal n.row₂ && m.row₃.equal n.row₃

/-! ### Special matrices -/

section Special

variable [Zero S] [One S]

/-- The matrix with the given diagonal. -/
def diagonal (x y z w : S) : Matrix4 S :=
  ⟨⟨x, 0, 0, 0⟩, ⟨0, y, 0, 0⟩, ⟨0, 0, z, 0⟩, ⟨0, 0, 0, w⟩⟩

/-- The identity matrix. -/
def identity : Matrix4 S := diagonal 1 1 1 1

/-- The matrix that moves by a vector. -/
def translation (a : Vec S 3) : Matrix4 S :=
  ⟨⟨1, 0, 0, a.x⟩, ⟨0, 1, 0, a.y⟩, ⟨0, 0, 1, a.z⟩, ⟨0, 0, 0, 1⟩⟩

/-- The matrix that scales along the axes. -/
def scaling (a : Vec S 3) : Matrix4 S := diagonal a.x a.y a.z 1

/-- The matrix that turns around a unit axis by an angle with the given sine and cosine. -/
def rotation [Add S] [Sub S] [Mul S] (axis : Vec S 3) (sin cos : S) : Matrix4 S :=
  let x := axis.x
  let y := axis.y
  let z := axis.z
  let k := 1 - cos
  let xx := x * x
  let yy := y * y
  let zz := z * z
  ⟨⟨xx + (1 - xx) * cos, x * y * k - z * sin, x * z * k + y * sin, 0⟩,
    ⟨x * y * k + z * sin, yy + (1 - yy) * cos, y * z * k - x * sin, 0⟩,
    ⟨x * z * k - y * sin, y * z * k + x * sin, zz + (1 - zz) * cos, 0⟩,
    ⟨0, 0, 0, 1⟩⟩

end Special

/-! ### Products -/

section Products

variable [Add S] [Mul S]

/-- A row times a matrix. -/
def rowMul (q : Quad S) (m : Matrix4 S) : Quad S :=
  ⟨q.dot m.col₀, q.dot m.col₁, q.dot m.col₂, q.dot m.col₃⟩

/-- The product of two matrices. -/
def mul (m n : Matrix4 S) : Matrix4 S :=
  ⟨rowMul m.row₀ n, rowMul m.row₁ n, rowMul m.row₂ n, rowMul m.row₃ n⟩

instance : Mul (Matrix4 S) := ⟨mul⟩

/-- The matrix times a column of homogeneous coordinates. -/
def mulQuad (m : Matrix4 S) (q : Quad S) : Quad S :=
  ⟨m.row₀.dot q, m.row₁.dot q, m.row₂.dot q, m.row₃.dot q⟩

/-- The linear part of the matrix, its first three rows and columns, times a column. -/
def mulLinear (m : Matrix4 S) (x y z : S) : Vector S 3 :=
  let entry (q : Quad S) : S := q.x * x + q.y * y + q.z * z
  #v[entry m.row₀, entry m.row₁, entry m.row₂]

end Products

/-! ### The inverse -/

section Inverse

variable [Add S] [Sub S] [Mul S] [Neg S]

/-- The transposed matrix of the cofactors.  The names of the entries count them column by
column. -/
def adjugate : Matrix4 S → Matrix4 S
  | ⟨⟨m₀, m₄, m₈, m₁₂⟩, ⟨m₁, m₅, m₉, m₁₃⟩, ⟨m₂, m₆, m₁₀, m₁₄⟩, ⟨m₃, m₇, m₁₁, m₁₅⟩⟩ =>
    ⟨⟨m₅ * m₁₀ * m₁₅ - m₅ * m₁₁ * m₁₄ - m₉ * m₆ * m₁₅ + m₉ * m₇ * m₁₄ + m₁₃ * m₆ * m₁₁
          - m₁₃ * m₇ * m₁₀,
        -m₄ * m₁₀ * m₁₅ + m₄ * m₁₁ * m₁₄ + m₈ * m₆ * m₁₅ - m₈ * m₇ * m₁₄ - m₁₂ * m₆ * m₁₁
          + m₁₂ * m₇ * m₁₀,
        m₄ * m₉ * m₁₅ - m₄ * m₁₁ * m₁₃ - m₈ * m₅ * m₁₅ + m₈ * m₇ * m₁₃ + m₁₂ * m₅ * m₁₁
          - m₁₂ * m₇ * m₉,
        -m₄ * m₉ * m₁₄ + m₄ * m₁₀ * m₁₃ + m₈ * m₅ * m₁₄ - m₈ * m₆ * m₁₃ - m₁₂ * m₅ * m₁₀
          + m₁₂ * m₆ * m₉⟩,
      ⟨-m₁ * m₁₀ * m₁₅ + m₁ * m₁₁ * m₁₄ + m₉ * m₂ * m₁₅ - m₉ * m₃ * m₁₄ - m₁₃ * m₂ * m₁₁
          + m₁₃ * m₃ * m₁₀,
        m₀ * m₁₀ * m₁₅ - m₀ * m₁₁ * m₁₄ - m₈ * m₂ * m₁₅ + m₈ * m₃ * m₁₄ + m₁₂ * m₂ * m₁₁
          - m₁₂ * m₃ * m₁₀,
        -m₀ * m₉ * m₁₅ + m₀ * m₁₁ * m₁₃ + m₈ * m₁ * m₁₅ - m₈ * m₃ * m₁₃ - m₁₂ * m₁ * m₁₁
          + m₁₂ * m₃ * m₉,
        m₀ * m₉ * m₁₄ - m₀ * m₁₀ * m₁₃ - m₈ * m₁ * m₁₄ + m₈ * m₂ * m₁₃ + m₁₂ * m₁ * m₁₀
          - m₁₂ * m₂ * m₉⟩,
      ⟨m₁ * m₆ * m₁₅ - m₁ * m₇ * m₁₄ - m₅ * m₂ * m₁₅ + m₅ * m₃ * m₁₄ + m₁₃ * m₂ * m₇
          - m₁₃ * m₃ * m₆,
        -m₀ * m₆ * m₁₅ + m₀ * m₇ * m₁₄ + m₄ * m₂ * m₁₅ - m₄ * m₃ * m₁₄ - m₁₂ * m₂ * m₇
          + m₁₂ * m₃ * m₆,
        m₀ * m₅ * m₁₅ - m₀ * m₇ * m₁₃ - m₄ * m₁ * m₁₅ + m₄ * m₃ * m₁₃ + m₁₂ * m₁ * m₇
          - m₁₂ * m₃ * m₅,
        -m₀ * m₅ * m₁₄ + m₀ * m₆ * m₁₃ + m₄ * m₁ * m₁₄ - m₄ * m₂ * m₁₃ - m₁₂ * m₁ * m₆
          + m₁₂ * m₂ * m₅⟩,
      ⟨-m₁ * m₆ * m₁₁ + m₁ * m₇ * m₁₀ + m₅ * m₂ * m₁₁ - m₅ * m₃ * m₁₀ - m₉ * m₂ * m₇
          + m₉ * m₃ * m₆,
        m₀ * m₆ * m₁₁ - m₀ * m₇ * m₁₀ - m₄ * m₂ * m₁₁ + m₄ * m₃ * m₁₀ + m₈ * m₂ * m₇
          - m₈ * m₃ * m₆,
        -m₀ * m₅ * m₁₁ + m₀ * m₇ * m₉ + m₄ * m₁ * m₁₁ - m₄ * m₃ * m₉ - m₈ * m₁ * m₇
          + m₈ * m₃ * m₅,
        m₀ * m₅ * m₁₀ - m₀ * m₆ * m₉ - m₄ * m₁ * m₁₀ + m₄ * m₂ * m₉ + m₈ * m₁ * m₆
          - m₈ * m₂ * m₅⟩⟩

/-- The determinant, developed by the first column. -/
def determinant (m : Matrix4 S) : S := m.col₀.dot m.adjugate.row₀

/-- The inverse matrix, unless the determinant is zero. -/
def inverse? [Zero S] [One S] [Div S] [BEq S] (m : Matrix4 S) : Option (Matrix4 S) :=
  let d := m.determinant
  if d == 0 then
    none
  else
    let k := 1 / d
    let a := m.adjugate
    some ⟨a.row₀.scale k, a.row₁.scale k, a.row₂.scale k, a.row₃.scale k⟩

end Inverse

end Matrix4

end RenderKernel
