import RenderKernel.Geometry.Column
import RenderKernel.Json.Components
import RenderKernel.Text.Block

/-!
# Geometric primitives

What vectors, points and normals have in common: they are given by a column of components.
The class `Primitive` holds the two conversions, and everything that concerns the components
alone is defined for all primitives at once: constructors, access, equality, texts and the
data format.  What the components mean is defined for each primitive in a module of its own.
-/

namespace RenderKernel

universe u

/-- A kind of geometric quantity given by `n` components. -/
class Primitive (P : Type u) (S : outParam (Type u)) (n : outParam Nat) where
  /-- The name of the kind in full texts. -/
  name : String
  /-- The components of a quantity. -/
  components : P → Vector S n
  /-- The quantity with given components. -/
  ofComponents : Vector S n → P

namespace Primitive

variable {P : Type u} {S : Type u} {n : Nat} [Primitive P S n]

/-! ### Constructors -/

/-- The quantity whose components are all equal. -/
def splat (x : S) : P := ofComponents (Vector.replicate n x)

/-- The quantity whose components are all zero. -/
def zeros [Zero S] : P := splat 0

/-- The quantity whose components are a column of a grid. -/
def ofGrid {cols : Nat} (g : Grid S n cols) (j : Nat) : Except ShapeFault P :=
  (g.column j).map ofComponents

/-! ### Access -/

/-- The number of components of a kind of quantity. -/
def dim (P : Type u) {S : Type u} {n : Nat} [Primitive P S n] : Nat := n

/-- A component by its number. -/
def get (p : P) (i : Nat) : Except ShapeFault S := Column.get (components p) i

/-- The quantity with one component replaced. -/
def set (p : P) (i : Nat) (x : S) : Except ShapeFault P :=
  (Column.set (components p) i x).map ofComponents

/-- Equality of all components. -/
def equal [BEq S] (p q : P) : Bool := components p == components q

/-! ### Texts -/

section Texts

variable {P : Type} {S : Type} {n : Nat} [Primitive P S n]

/-- The text with at most `digits` significant digits for each component. -/
def display [Legible S] (digits : Nat) (p : P) : Except FormatFault String :=
  (Grid.ofColumn (components p)).block digits

/-- The components in full, between brackets. -/
def fullComponents [Legible S] (c : Vector S n) : String :=
  "[" ++ ", ".intercalate (c.toList.map Legible.full) ++ "]"

/-- The quantity in full, on one line. -/
def full [Legible S] (p : P) : String :=
  name P ++ "(" ++ fullComponents (components p) ++ ")"

/-- The quantity in full, with a line for each component. -/
def fullLines [Legible S] (p : P) : String :=
  let items := (components p).toList.map fun x => "        " ++ Legible.full x ++ ",\n"
  let list := if items.isEmpty then "[]" else "[\n" ++ String.join items ++ "    ]"
  name P ++ "(\n    " ++ list ++ ",\n)"

/-! ### The data format -/

/-- The quantity as an array of its components. -/
def toJson [Json.Scalar S] (p : P) : String :=
  String.ofList (Json.componentsText (components p).toList)

/-- The quantity that a document holds. -/
def ofJson [Json.Scalar S] (text : String) : Except Json.ReadFault P := do
  let xs ← Json.componentsOfText n text
  if h : xs.toArray.size = n then
    return ofComponents ⟨xs.toArray, h⟩
  else
    throw (.mismatch (.length xs.length .components))

end Texts

end Primitive

end RenderKernel
