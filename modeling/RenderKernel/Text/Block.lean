import RenderKernel.Geometry.Grid
import RenderKernel.Text.Legible

/-!
# Blocks of numbers

The text of a grid.  A grid with one column is written as a single bracketed row; any other
grid is a block with a line for each row, its cells aligned to the right in a common width.

    [1, 2, 3]

    [ 1, 20;
      3,  4]
-/

namespace RenderKernel

namespace Block

/-- Lines of cells between brackets: cells are separated by a comma, lines by a semicolon and
a line break. -/
def bracketed (lines : List (List (List Char))) : List Char :=
  '[' :: [';', '\n', ' '].intercalate (lines.map [',', ' '].intercalate) ++ [']']

/-- The greatest length of a cell. -/
def width (lines : List (List (List Char))) : Nat :=
  (lines.flatten.map List.length).foldl max 0

/-- The lines with every cell filled up on its left to a common width.  A width beyond the
greatest precision is refused. -/
def aligned (lines : List (List (List Char))) : Except FormatFault (List (List (List Char))) := do
  if lines.flatten.isEmpty then
    return lines
  else
    let w := width lines
    Significant.checkPrecision w
    return lines.map (·.map (List.leftpad w ' '))

end Block

namespace Grid

variable {V : Type} [Legible V] {rows cols : Nat}

/-- The texts of the cells, row by row. -/
def cells (digits : Nat) (g : Grid V rows cols) : Except FormatFault (List (List (List Char))) :=
  g.entries.toList.mapM fun row => row.toList.mapM (Legible.significantText digits)

/-- The characters of the text of a grid. -/
def blockText (digits : Nat) (g : Grid V rows cols) : Except FormatFault (List Char) := do
  let lines ← g.cells digits
  if cols = 1 then
    return Block.bracketed [lines.flatten]
  else
    return Block.bracketed (← Block.aligned lines)

/-- The grid with at most `digits` significant digits in each cell. -/
def block (digits : Nat) (g : Grid V rows cols) : Except FormatFault String :=
  (g.blockText digits).map String.ofList

end Grid

end RenderKernel
