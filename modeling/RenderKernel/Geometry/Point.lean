import RenderKernel.Geometry.Vec

/-!
# Points

A point is a location.  The difference of two points is a vector, and a point can be moved by
a vector; points cannot be added or scaled.
-/

namespace RenderKernel

universe u

/-- A location in `n` dimensions. -/
structure Point (S : Type u) (n : Nat) where
  components : Vector S n

instance {S : Type u} {n : Nat} : Primitive (Point S n) S n where
  name := "Point"
  components := Point.components
  ofComponents := Point.mk

namespace Point

variable {S : Type u} {n : Nat}

/-- The origin of the coordinate system. -/
def origin [Zero S] : Point S n := Primitive.zeros

/-- The position vector of a point. -/
def coords (p : Point S n) : Vec S n := ⟨p.components⟩

/-- The point that a vector leads to from the origin. -/
def ofCoords (a : Vec S n) : Point S n := ⟨a.components⟩

/-- The point of three coordinates. -/
abbrev of₃ (x y z : S) : Point S 3 := ofCoords (.of₃ x y z)

/-- The point of computations that yield the components. -/
def lift {S V : Type} [Computation S V] (p : Point V n) : Point S n :=
  ⟨p.components.map Computation.value⟩

/-- The point that the computations of the components yield. -/
def evaluate {S V : Type} [Computation S V] (p : Point S n) : Except ArithmeticFault (Point V n) :=
  (Column.sequence Computation.run p.components).map Point.mk

instance [Sub S] : HSub (Point S n) (Point S n) (Vec S n) :=
  ⟨fun p q => ⟨Column.sub p.components q.components⟩⟩

instance [Add S] : HAdd (Point S n) (Vec S n) (Point S n) :=
  ⟨fun p a => ⟨Column.add p.components a.components⟩⟩

instance [Sub S] : HSub (Point S n) (Vec S n) (Point S n) :=
  ⟨fun p a => ⟨Column.sub p.components a.components⟩⟩

/-- The distance of two points. -/
def distance [Add S] [Sub S] [Mul S] [Zero S] [SquareRoot S] (p q : Point S n) : S :=
  (q - p : Vec S n).norm

/-- The square of the distance of two points. -/
def distanceSquared [Add S] [Sub S] [Mul S] [Zero S] (p q : Point S n) : S :=
  (q - p : Vec S n).normSquared

/-- The point between `p` and `q` that `t` stands for: `p` at zero, `q` at one. -/
def lerp [Add S] [Sub S] [Mul S] (p q : Point S n) (t : S) : Point S n :=
  p + (q - p : Vec S n) * t

end Point

end RenderKernel
