import RenderKernel.Geometry.Transform
import RenderKernel.Proofs.Geometry.Components
import RenderKernel.Proofs.Geometry.Matrix

/-!
# Homogeneous coordinates and affine matrices

Matrices act on columns of homogeneous coordinates from the left and on rows from the right.
Vectors are columns that end in zero, points are columns that end in one, and a normal is what
the first three coordinates of a row say.

A matrix is affine if its last row is `0, 0, 0, 1`.  Affine matrices are closed under products
and inverses (`Affine.mul`, `Affine.of_mutuallyInverse`).
-/

universe u

namespace RenderKernel

variable {S : Type u}

/-! ### Columns -/

namespace Matrix4

variable [CommRing S]

/-- Applying a product is applying one factor after the other. -/
theorem mulQuad_mul (m n : Matrix4 S) (q : Quad S) :
  (m * n).mulQuad q = m.mulQuad (n.mulQuad q)
  := by
  ext
  all_goals
    simp only [mulQuad, row₀_mul, row₁_mul, row₂_mul, row₃_mul, rowMul, Quad.dot, col₀, col₁, col₂,
      col₃]
    ring

theorem identity_mulQuad (q : Quad S) :
  identity.mulQuad q = q
  := by
  ext
  all_goals
    simp only [mulQuad, identity, diagonal, Quad.dot]
    ring

theorem mulQuad_scale (m : Matrix4 S) (q : Quad S) (k : S) :
  m.mulQuad (q.scale k) = (m.mulQuad q).scale k
  := by
  ext
  all_goals
    simp only [mulQuad, Quad.scale, Quad.dot]
    ring

/-- Multiplying a row by a matrix before a column is applying the matrix to the column. -/
theorem rowMul_dot (q : Quad S) (m : Matrix4 S) (r : Quad S) :
  (rowMul q m).dot r = q.dot (m.mulQuad r)
  := by
  simp only [rowMul, mulQuad, Quad.dot, col₀, col₁, col₂, col₃]
  ring

/-- What one of two mutually inverse matrices does is undone by the other one. -/
theorem MutuallyInverse.mulQuad_mulQuad {m n : Matrix4 S} (h : MutuallyInverse m n)
    (q : Quad S) :
  n.mulQuad (m.mulQuad q) = q
  := by
  rw [← mulQuad_mul, h.mul_left, identity_mulQuad]

/-- What one of two mutually inverse matrices does to a row is undone by the other one. -/
theorem MutuallyInverse.rowMul_rowMul {m n : Matrix4 S} (h : MutuallyInverse m n)
    (q : Quad S) :
  rowMul (rowMul q m) n = q
  := by
  rw [← rowMul_mul, h.mul_right, rowMul_identity]

end Matrix4

/-! ### Affine matrices -/

/-- The first three coordinates are zero. -/
def Quad.Flat [Zero S] (q : Quad S) : Prop := q.x = 0 ∧ q.y = 0 ∧ q.z = 0

/-- The last row is `0, 0, 0, 1`. -/
def Matrix4.Affine [Zero S] [One S] (m : Matrix4 S) : Prop := m.row₃ = ⟨0, 0, 0, 1⟩

namespace Matrix4

theorem Affine.flat [Zero S] [One S] {m : Matrix4 S} (h : m.Affine) :
  m.row₃.Flat
  := by
  rw [h]
  use rfl, rfl

variable [CommRing S] {m n : Matrix4 S}

/-- An affine matrix picks the last row of the second factor. -/
theorem Affine.row₃_mul_eq (h : m.Affine) (n : Matrix4 S) :
  (m * n).row₃ = n.row₃
  := by
  rw [row₃_mul, h]
  ext
  all_goals
    simp only [rowMul, Quad.dot, col₀, col₁, col₂, col₃]
    ring

theorem Affine.mul (h : m.Affine) (h' : n.Affine) :
  (m * n).Affine
  := by
  rw [Affine, h.row₃_mul_eq]
  apply h'

/-- The inverse of an affine matrix is affine. -/
theorem Affine.of_mutuallyInverse (h : m.Affine) (hmn : MutuallyInverse m n) :
  n.Affine
  := by
  rw [Affine, ← h.row₃_mul_eq, hmn.mul_right]
  rfl

theorem rowMul_w_of_flat (h : n.col₃.Flat) (q : Quad S) :
  (rowMul q n).w = q.w * n.row₃.w
  := by
  obtain ⟨hx, hy, hz⟩ := h
  simp only [rowMul, Quad.dot, hx, hy, hz, mul_zero, zero_add]
  rfl

/-- If the last column of a matrix is zero but for its last entry, so is that of the inverse. -/
theorem MutuallyInverse.flat_col₃ [IsDomain S] (h : MutuallyInverse m n) (hn : n.col₃.Flat) :
  m.col₃.Flat
  := by
  have h₀ : m.row₀.w * n.row₃.w = 0 := by
    rw [← rowMul_w_of_flat hn, ← row₀_mul, h.mul_right]
    rfl
  have h₁ : m.row₁.w * n.row₃.w = 0 := by
    rw [← rowMul_w_of_flat hn, ← row₁_mul, h.mul_right]
    rfl
  have h₂ : m.row₂.w * n.row₃.w = 0 := by
    rw [← rowMul_w_of_flat hn, ← row₂_mul, h.mul_right]
    rfl
  have h₃ : m.row₃.w * n.row₃.w = 1 := by
    rw [← rowMul_w_of_flat hn, ← row₃_mul, h.mul_right]
    rfl
  have hw : n.row₃.w ≠ 0 := right_ne_zero_of_mul_eq_one h₃
  constructor
  · apply (mul_eq_zero.mp h₀).resolve_right hw
  · constructor
    · apply (mul_eq_zero.mp h₁).resolve_right hw
    · apply (mul_eq_zero.mp h₂).resolve_right hw

end Matrix4

/-! ### Vectors, points and normals -/

/-- The homogeneous coordinates of a vector. -/
def Vec.toQuad [Zero S] (a : Vec S 3) : Quad S := ⟨a.x, a.y, a.z, 0⟩

/-- The homogeneous coordinates of a normal. -/
def Normal.toQuad [Zero S] (n : Normal S) : Quad S := ⟨n.x, n.y, n.z, 0⟩

/-- The homogeneous coordinates of a point. -/
def Point.toQuad [One S] (p : Point S 3) : Quad S := ⟨p.coords.x, p.coords.y, p.coords.z, 1⟩

/-- The vector of the first three coordinates of a column. -/
def Quad.vector (q : Quad S) : Vec S 3 := .of₃ q.x q.y q.z

/-- The normal of the first three coordinates of a row. -/
def Quad.covector (q : Quad S) : Normal S := .of₃ q.x q.y q.z

/-- The point that a column stands for. -/
def Quad.project [Div S] (q : Quad S) : Point S 3 := .of₃ (q.x / q.w) (q.y / q.w) (q.z / q.w)

section Images

variable [CommRing S]

/-- A row times a column is the pairing of what they stand for, and the product of their last
coordinates. -/
theorem Quad.dot_eq (q r : Quad S) :
  q.dot r = q.covector.dotVec r.vector + q.w * r.w
  := rfl

/-- A normal and a vector that exchange their coordinates are paired alike. -/
theorem Quad.covector_dotVec (q : Quad S) (a : Vec S 3) :
  q.covector.dotVec a = (Normal.ofVec a).dotVec q.vector
  := by
  calc
    q.covector.dotVec a = q.x * a.x + q.y * a.y + q.z * a.z := rfl
    _ = a.x * q.x + a.y * q.y + a.z * q.z := by ring

theorem Vec.vector_toQuad (a : Vec S 3) :
  a.toQuad.vector = a
  := ext_three rfl rfl rfl

theorem Quad.dot_toQuad (q : Quad S) (a : Vec S 3) :
  q.dot a.toQuad = q.covector.dotVec a
  := by
  rw [dot_eq, Vec.vector_toQuad, Vec.toQuad, mul_zero, add_zero]

theorem Normal.covector_toQuad (n : Normal S) :
  n.toQuad.covector = n
  := ext_three rfl rfl rfl

theorem Normal.toQuad_dot (n : Normal S) (q : Quad S) :
  n.toQuad.dot q = n.dotVec q.vector
  := by
  rw [Quad.dot_eq, covector_toQuad, toQuad, zero_mul, add_zero]

theorem Matrix4.mulQuad_toQuad (m : Matrix4 S) (a : Vec S 3) :
  m.mulQuad a.toQuad = ⟨m.row₀.covector.dotVec a, m.row₁.covector.dotVec a,
    m.row₂.covector.dotVec a, m.row₃.covector.dotVec a⟩
  := by
  simp only [mulQuad, Quad.dot_toQuad]

theorem Matrix4.rowMul_toQuad (m : Matrix4 S) (n : Normal S) :
  rowMul n.toQuad m = ⟨n.dotVec m.col₀.vector, n.dotVec m.col₁.vector, n.dotVec m.col₂.vector,
    n.dotVec m.col₃.vector⟩
  := by
  simp only [rowMul, Normal.toQuad_dot]

/-- A vector is mapped by the matrix, its last coordinate left out. -/
theorem Transform.applyVec_eq (t : Transform S) (a : Vec S 3) :
  t.applyVec a = (t.matrix.mulQuad a.toQuad).vector
  := by
  rw [Matrix4.mulQuad_toQuad]
  rfl

/-- A normal is mapped by the inverse matrix from the right, its last coordinate left out. -/
theorem Transform.applyNormal_eq (t : Transform S) (n : Normal S) :
  t.applyNormal n = (Matrix4.rowMul n.toQuad t.inverseMatrix).covector
  := by
  have hcomm (q : Quad S) : n.dotVec q.vector = q.covector.dotVec n.toVec := by
    symm
    apply q.covector_dotVec
  rw [Matrix4.rowMul_toQuad, hcomm, hcomm, hcomm]
  rfl

/-! ### Pairings that vanish -/

/-- A column that every normal is orthogonal to is zero but for its last coordinate. -/
theorem Quad.forall_dotVec_vector_eq_zero_iff (q : Quad S) :
  (∀ n : Normal S, n.dotVec q.vector = 0) ↔ q.Flat
  := by
  constructor
  · intro h
    have hx : 1 * q.x + 0 * q.y + 0 * q.z = 0 := h (.of₃ 1 0 0)
    have hy : 0 * q.x + 1 * q.y + 0 * q.z = 0 := h (.of₃ 0 1 0)
    have hz : 0 * q.x + 0 * q.y + 1 * q.z = 0 := h (.of₃ 0 0 1)
    constructor
    · linear_combination hx
    · constructor
      · linear_combination hy
      · linear_combination hz
  · rintro ⟨hx, hy, hz⟩ n
    calc
      n.dotVec q.vector = n.x * q.x + n.y * q.y + n.z * q.z := rfl
      _ = 0 := by rw [hx, hy, hz]; ring

/-- A row that is orthogonal to every vector is zero but for its last coordinate. -/
theorem Quad.forall_covector_dotVec_eq_zero_iff (q : Quad S) :
  (∀ a : Vec S 3, q.covector.dotVec a = 0) ↔ q.Flat
  := by
  rw [← forall_dotVec_vector_eq_zero_iff]
  constructor
  · intro h n
    apply (q.covector_dotVec n.toVec).symm.trans
    apply h
  · intro h a
    rw [covector_dotVec]
    apply h

end Images

end RenderKernel
