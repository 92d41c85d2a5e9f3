import RenderKernel.Geometry.Vec

/-!
# Normals

A surface normal is a covector in three dimensions: it is paired with vectors, and transforms
in its own way.
-/

namespace RenderKernel

universe u

/-- A surface normal. -/
structure Normal (S : Type u) where
  components : Vector S 3

instance {S : Type u} : Primitive (Normal S) S 3 where
  name := "Normal"
  components := Normal.components
  ofComponents := Normal.mk

namespace Normal

variable {S : Type u}

/-- The vector with the same components. -/
def toVec (n : Normal S) : Vec S 3 := ⟨n.components⟩

/-- The normal with the components of a vector. -/
def ofVec (a : Vec S 3) : Normal S := ⟨a.components⟩

/-- The normal of three components. -/
abbrev of₃ (x y z : S) : Normal S := ofVec (.of₃ x y z)

/-- The first component. -/
abbrev x (n : Normal S) : S := n.toVec.x

/-- The second component. -/
abbrev y (n : Normal S) : S := n.toVec.y

/-- The third component. -/
abbrev z (n : Normal S) : S := n.toVec.z

/-- The normal of computations that yield the components. -/
def lift {S V : Type} [Computation S V] (n : Normal V) : Normal S := ⟨n.components.map Computation.value⟩

/-- The normal that the computations of the components yield. -/
def evaluate {S V : Type} [Computation S V] (n : Normal S) : Except ArithmeticFault (Normal V) :=
  (Column.sequence Computation.run n.components).map Normal.mk

instance [Add S] : Add (Normal S) := ⟨fun m n => ⟨Column.add m.components n.components⟩⟩
instance [Sub S] : Sub (Normal S) := ⟨fun m n => ⟨Column.sub m.components n.components⟩⟩
instance [Neg S] : Neg (Normal S) := ⟨fun n => ⟨Column.neg n.components⟩⟩
instance [Mul S] : HMul (Normal S) S (Normal S) := ⟨fun n k => ⟨Column.scale n.components k⟩⟩
instance [Div S] : HDiv (Normal S) S (Normal S) := ⟨fun n k => ⟨Column.divide n.components k⟩⟩

/-- The dot product. -/
def dot [Add S] [Mul S] [Zero S] (m n : Normal S) : S := Column.dot m.components n.components

/-- The square of the length. -/
def normSquared [Add S] [Mul S] [Zero S] (n : Normal S) : S := Column.normSquared n.components

/-- The length. -/
def norm [Add S] [Mul S] [Zero S] [SquareRoot S] (n : Normal S) : S := Column.norm n.components

/-- The normal divided by its length. -/
def normalize [Add S] [Mul S] [Zero S] [Div S] [SquareRoot S] (n : Normal S) : Normal S :=
  ⟨Column.normalize n.components⟩

/-- The pairing of a normal with a vector: for unit lengths, the cosine between them. -/
def dotVec [Add S] [Mul S] (n : Normal S) (a : Vec S 3) : S :=
  n.x * a.x + n.y * a.y + n.z * a.z

/-- The normal, flipped if it is turned away from the vector. -/
def faceForward [Add S] [Mul S] [Neg S] [Zero S] [LT S] [DecidableLT S] (n : Normal S)
    (a : Vec S 3) : Normal S :=
  if n.dotVec a < 0 then -n else n

end Normal

end RenderKernel
