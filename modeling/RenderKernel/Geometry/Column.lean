import RenderKernel.Geometry.Grid
import RenderKernel.Number.Operations

/-!
# Columns of components

Operations on a fixed number of components, component by component and in their order: sums
and multiples, the dot product (a fold from the left that starts at zero), and the sum of the
squares of all components.  The sum of the squares of two, three or four components has an
order of its own; for other numbers of components it runs over eight lanes.
-/

namespace RenderKernel.Column

universe u v

variable {S : Type u} {T : Type v} {n : Nat}

/-! ### Access -/

/-- A component by its number. -/
def get (c : Vector S n) (i : Nat) : Except ShapeFault S :=
  if h : i < n then .ok (c.get ⟨i, h⟩) else .error .indexOutOfBounds

/-- The column with one component replaced. -/
def set (c : Vector S n) (i : Nat) (x : S) : Except ShapeFault (Vector S n) :=
  if h : i < n then .ok (c.set i x) else .error .indexOutOfBounds

/-- The results of computations, one for each component; the first fault is the fault of
all. -/
def sequence {ε : Type} {V : Type} (run : S → Except ε V) (c : Vector S n) :
    Except ε (Vector V n) :=
  c.mapM run

/-! ### Arithmetic -/

/-- The sum. -/
def add [Add S] (a b : Vector S n) : Vector S n := a.zipWith (· + ·) b

/-- The difference. -/
def sub [Sub S] (a b : Vector S n) : Vector S n := a.zipWith (· - ·) b

/-- The opposite. -/
def neg [Neg S] (a : Vector S n) : Vector S n := a.map (-·)

/-- Every component times a number. -/
def scale [Mul S] (a : Vector S n) (k : S) : Vector S n := a.map (· * k)

/-- Every component divided by a number. -/
def divide [Div S] (a : Vector S n) (k : S) : Vector S n := a.map (· / k)

/-- The sum of the products of the components, from the first one on. -/
def dot [Add S] [Mul S] [Zero S] (a b : Vector S n) : S :=
  (a.zip b).foldl (fun sum (x, y) => sum + x * y) 0

/-! ### The sum of squares -/

/-- Adds the squares of every full block of eight numbers to the eight lanes, and gives the
numbers that are left. -/
def addLanes [Add S] [Mul S] (lanes : Vector S 8) : List S → Vector S 8 × List S
  | x₀ :: x₁ :: x₂ :: x₃ :: x₄ :: x₅ :: x₆ :: x₇ :: rest =>
    addLanes (lanes.zipWith (fun lane x => lane + x * x) #v[x₀, x₁, x₂, x₃, x₄, x₅, x₆, x₇]) rest
  | rest => (lanes, rest)

/-- The sum of the squares over eight lanes: the lanes are added in pairs, then the numbers
that fill no block. -/
def laneSum [Add S] [Mul S] [Zero S] (xs : List S) : S :=
  let (lanes, rest) := addLanes (Vector.replicate 8 0) xs
  let paired := (0 : S) + (lanes[0] + lanes[4]) + (lanes[1] + lanes[5]) + (lanes[2] + lanes[6])
    + (lanes[3] + lanes[7])
  rest.foldl (fun sum x => sum + x * x) paired

/-- The sum of the squares of some numbers. -/
def squareSum [Add S] [Mul S] [Zero S] : List S → S
  | [x, y] => 0 + (x * x + y * y)
  | [x, y, z] => 0 + (x * x + y * y + z * z)
  | [x, y, z, w] => 0 + ((x * x + z * z) + (y * y + w * w))
  | xs => laneSum xs

/-- The sum of the squares of the components. -/
def normSquared [Add S] [Mul S] [Zero S] (a : Vector S n) : S := squareSum a.toList

/-- The length of the column. -/
def norm [Add S] [Mul S] [Zero S] [SquareRoot S] (a : Vector S n) : S := sqrt (normSquared a)

/-- The column divided by its length. -/
def normalize [Add S] [Mul S] [Zero S] [Div S] [SquareRoot S] (a : Vector S n) : Vector S n :=
  divide a (norm a)

end RenderKernel.Column
