import RenderKernel.Number.Integer

/-!
# Rectangular grids of numbers

A `Grid` has a fixed number of rows and columns.  A column of a grid can be taken out by its
number, and a component of a list of components read and replaced by its number; numbers that
are too large are faults.  The end of a column is counted in 64 bits, and a column that has no
end is a fault of its own.
-/

namespace RenderKernel

universe u

/-- Why a part of a grid cannot be reached. -/
inductive ShapeFault where
  | indexOutOfBounds
  | columnOutOfBounds
  /-- The number of the column after the wanted one is too large to be formed. -/
  | endOfColumn (fault : ArithmeticFault)
deriving DecidableEq, Repr

/-- The text that reports a fault. -/
def ShapeFault.message : ShapeFault → String
  | .indexOutOfBounds => "Matrix index out of bounds."
  | .columnOutOfBounds => "Matrix slicing out of bounds."
  | .endOfColumn fault => fault.message

/-- A list as components, if there are exactly `n` of them. -/
def components? {S : Type u} (n : Nat) (xs : List S) : Option (Vector S n) :=
  if h : xs.toArray.size = n then some ⟨xs.toArray, h⟩ else none

/-- A grid of numbers, row by row. -/
structure Grid (S : Type u) (rows cols : Nat) where
  entries : Vector (Vector S cols) rows

namespace Grid

variable {S : Type u} {rows cols : Nat}

/-- The grid with one column. -/
def ofColumn (components : Vector S rows) : Grid S rows 1 := ⟨components.map fun x => #v[x]⟩

/-- A list read row by row. -/
def ofList? (rows cols : Nat) (xs : List S) : Option (Grid S rows cols) :=
  let row (i : Nat) : Option (Vector S cols) := components? cols ((xs.drop (i * cols)).take cols)
  (((List.range rows).mapM row).bind (components? rows)).map Grid.mk

/-- A column of the grid. -/
def column (g : Grid S rows cols) (j : Nat) : Except ShapeFault (Vector S rows) :=
  if !IntegerKind.unsigned64.holds (j + 1) then .error (.endOfColumn (.overflow .add))
  else if h : j < cols then .ok (g.entries.map fun row => row[j]) else .error .columnOutOfBounds

end Grid

end RenderKernel
