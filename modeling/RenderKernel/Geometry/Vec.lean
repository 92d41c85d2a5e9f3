import RenderKernel.Geometry.Primitive
import RenderKernel.Number.Computation

/-!
# Vectors

A vector is a free displacement or direction.  Vectors of a dimension can be added, scaled and
measured; in three dimensions they have a cross product.
-/

namespace RenderKernel

universe u

/-- A free displacement or direction in `n` dimensions. -/
structure Vec (S : Type u) (n : Nat) where
  components : Vector S n

instance {S : Type u} {n : Nat} : Primitive (Vec S n) S n where
  name := "Vector"
  components := Vec.components
  ofComponents := Vec.mk

namespace Vec

variable {S : Type u} {n : Nat}

/-- The vector of three components. -/
abbrev of₃ (x y z : S) : Vec S 3 := ⟨#v[x, y, z]⟩

/-- The first component of a vector in three dimensions. -/
abbrev x (a : Vec S 3) : S := a.components[0]

/-- The second component of a vector in three dimensions. -/
abbrev y (a : Vec S 3) : S := a.components[1]

/-- The third component of a vector in three dimensions. -/
abbrev z (a : Vec S 3) : S := a.components[2]

/-- The vector of the images of the components. -/
def map {T : Type u} (g : S → T) (a : Vec S n) : Vec T n := ⟨a.components.map g⟩

/-- The vector of computations that yield the components. -/
def lift {S V : Type} [Computation S V] (a : Vec V n) : Vec S n := a.map Computation.value

/-- The vector that the computations of the components yield. -/
def evaluate {S V : Type} [Computation S V] (a : Vec S n) : Except ArithmeticFault (Vec V n) :=
  (Column.sequence Computation.run a.components).map Vec.mk

instance [Add S] : Add (Vec S n) := ⟨fun a b => ⟨Column.add a.components b.components⟩⟩
instance [Sub S] : Sub (Vec S n) := ⟨fun a b => ⟨Column.sub a.components b.components⟩⟩
instance [Neg S] : Neg (Vec S n) := ⟨fun a => ⟨Column.neg a.components⟩⟩
instance [Mul S] : HMul (Vec S n) S (Vec S n) := ⟨fun a k => ⟨Column.scale a.components k⟩⟩
instance [Div S] : HDiv (Vec S n) S (Vec S n) := ⟨fun a k => ⟨Column.divide a.components k⟩⟩

/-- The dot product. -/
def dot [Add S] [Mul S] [Zero S] (a b : Vec S n) : S := Column.dot a.components b.components

/-- The square of the length. -/
def normSquared [Add S] [Mul S] [Zero S] (a : Vec S n) : S := Column.normSquared a.components

/-- The length. -/
def norm [Add S] [Mul S] [Zero S] [SquareRoot S] (a : Vec S n) : S := Column.norm a.components

/-- The vector divided by its length. -/
def normalize [Add S] [Mul S] [Zero S] [Div S] [SquareRoot S] (a : Vec S n) : Vec S n :=
  ⟨Column.normalize a.components⟩

/-- The cross product, by the right-hand rule. -/
def cross [Sub S] [Mul S] (a b : Vec S 3) : Vec S 3 :=
  of₃ (a.y * b.z - a.z * b.y) (a.z * b.x - a.x * b.z) (a.x * b.y - a.y * b.x)

/-- Whether every component is finite. -/
def isFinite {f : Format} (a : Vec (Binary f) n) : Bool := a.components.all Binary.isFinite

end Vec

end RenderKernel
