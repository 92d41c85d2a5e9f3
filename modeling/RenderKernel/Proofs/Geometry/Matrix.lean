import Mathlib.LinearAlgebra.Matrix.Adjugate
import Mathlib.Tactic.FinCases
import Mathlib.Tactic.LinearCombination
import RenderKernel.Geometry.Matrix

/-!
# The algebra of homogeneous matrices

Over a commutative ring the matrices form a monoid, and `toMatrix` embeds it into the matrices
of the library, where `determinant` becomes the determinant.  Over a field the inverse by
cofactors is therefore exact: `inverse?` finds the inverse of a matrix if there is one, and
answers nothing otherwise (`inverse?_eq_some_iff`).
-/

universe u

namespace RenderKernel.Matrix4

variable {S : Type u}

/-! ### The monoid of matrices -/

section Monoid

variable [CommRing S]

theorem row₀_mul (m n : Matrix4 S) :
  (m * n).row₀ = rowMul m.row₀ n
  := rfl

theorem row₁_mul (m n : Matrix4 S) :
  (m * n).row₁ = rowMul m.row₁ n
  := rfl

theorem row₂_mul (m n : Matrix4 S) :
  (m * n).row₂ = rowMul m.row₂ n
  := rfl

theorem row₃_mul (m n : Matrix4 S) :
  (m * n).row₃ = rowMul m.row₃ n
  := rfl

/-- Multiplying a row by a product is multiplying it by one factor after the other. -/
theorem rowMul_mul (q : Quad S) (m n : Matrix4 S) :
  rowMul q (m * n) = rowMul (rowMul q m) n
  := by
  ext
  all_goals
    simp only [rowMul, Quad.dot, col₀, col₁, col₂, col₃, row₀_mul, row₁_mul, row₂_mul, row₃_mul]
    ring

theorem rowMul_identity (q : Quad S) :
  rowMul q identity = q
  := by
  ext
  all_goals
    simp only [rowMul, Quad.dot, col₀, col₁, col₂, col₃, identity, diagonal]
    ring

instance : One (Matrix4 S) := ⟨identity⟩

theorem one_eq_identity :
  (1 : Matrix4 S) = identity
  := rfl

instance : Monoid (Matrix4 S) where
  mul_assoc l m n := by
    ext1
    all_goals
      symm
      apply rowMul_mul
  one_mul m := by
    ext
    all_goals
      simp only [one_eq_identity, row₀_mul, row₁_mul, row₂_mul, row₃_mul, rowMul, Quad.dot, col₀,
        col₁, col₂, col₃, identity, diagonal]
      ring
  mul_one m := by
    ext1
    all_goals apply rowMul_identity

/-- The matrix with every entry multiplied by a number. -/
def scale (m : Matrix4 S) (k : S) : Matrix4 S :=
  ⟨m.row₀.scale k, m.row₁.scale k, m.row₂.scale k, m.row₃.scale k⟩

theorem scale_mul (m n : Matrix4 S) (k : S) :
  m.scale k * n = (m * n).scale k
  := by
  ext
  all_goals
    simp only [scale, Quad.scale, rowMul, Quad.dot, row₀_mul, row₁_mul, row₂_mul, row₃_mul]
    ring

theorem mul_scale (m n : Matrix4 S) (k : S) :
  m * n.scale k = (m * n).scale k
  := by
  ext
  all_goals
    simp only [scale, Quad.scale, rowMul, Quad.dot, col₀, col₁, col₂, col₃, row₀_mul, row₁_mul,
      row₂_mul, row₃_mul]
    ring

end Monoid

/-! ### Matrices as matrices of the library -/

section Library

/-- The matrix as a function of the numbers of the row and of the column. -/
def toMatrix (m : Matrix4 S) : Matrix (Fin 4) (Fin 4) S :=
  !![m.row₀.x, m.row₀.y, m.row₀.z, m.row₀.w;
    m.row₁.x, m.row₁.y, m.row₁.z, m.row₁.w;
    m.row₂.x, m.row₂.y, m.row₂.z, m.row₂.w;
    m.row₃.x, m.row₃.y, m.row₃.z, m.row₃.w]

variable [CommRing S]

/-- The product of the sixteen entries is that of matrices. -/
theorem toMatrix_mul (m n : Matrix4 S) :
  (m * n).toMatrix = m.toMatrix * n.toMatrix
  := by
  ext i j
  rw [Matrix.mul_apply, Fin.sum_univ_four]
  fin_cases i
  all_goals
    fin_cases j
    all_goals rfl

theorem toMatrix_identity :
  (identity : Matrix4 S).toMatrix = 1
  := by
  ext i j
  fin_cases i
  all_goals
    fin_cases j
    all_goals rfl

/-- The development by the first column gives the determinant. -/
theorem det_toMatrix (m : Matrix4 S) :
  m.toMatrix.det = m.determinant
  := by
  obtain ⟨⟨_, _, _, _⟩, ⟨_, _, _, _⟩, ⟨_, _, _, _⟩, ⟨_, _, _, _⟩⟩ := m
  rw [Matrix.det_succ_column_zero, Fin.sum_univ_four]
  simp only [Matrix.det_fin_three, Matrix.submatrix_apply, Matrix.of_apply, Matrix.cons_val,
    Fin.coe_ofNat_eq_mod, Fin.succAbove, Fin.reduceSucc, Fin.reduceCastSucc, Fin.reduceLT,
    ↓reduceIte, toMatrix, determinant, adjugate, Quad.dot, col₀]
  ring

theorem determinant_mul (m n : Matrix4 S) :
  (m * n).determinant = m.determinant * n.determinant
  := by
  rw [← det_toMatrix, ← det_toMatrix, ← det_toMatrix, toMatrix_mul, Matrix.det_mul]

theorem determinant_identity :
  (identity : Matrix4 S).determinant = 1
  := by
  rw [← det_toMatrix, toMatrix_identity, Matrix.det_one]

end Library

/-! ### Inverses -/

/-- Two matrices are mutually inverse if their products in both orders are the identity. -/
structure MutuallyInverse [Add S] [Mul S] [Zero S] [One S] (m n : Matrix4 S) : Prop where
  mul_right : m * n = identity
  mul_left : n * m = identity

namespace MutuallyInverse

variable [CommRing S] {m n m' n' : Matrix4 S}

theorem symm (h : MutuallyInverse m n) :
  MutuallyInverse n m
  := ⟨h.mul_left, h.mul_right⟩

theorem identity :
  MutuallyInverse (identity : Matrix4 S) .identity
  := ⟨one_mul 1, one_mul 1⟩

/-- The inverse of a product is the product of the inverses in the opposite order. -/
theorem mul (h : MutuallyInverse m n) (h' : MutuallyInverse m' n') :
  MutuallyInverse (m * m') (n' * n)
  := by
  constructor
  · calc
      m * m' * (n' * n) = m * (m' * n') * n := by simp only [mul_assoc]
      _ = m * 1 * n := by rw [h'.mul_right, one_eq_identity]
      _ = .identity := by rw [mul_one, h.mul_right]
  · calc
      n' * n * (m * m') = n' * (n * m) * m' := by simp only [mul_assoc]
      _ = n' * 1 * m' := by rw [h.mul_left, one_eq_identity]
      _ = .identity := by rw [mul_one, h'.mul_left]

/-- A matrix has at most one inverse. -/
theorem unique (h : MutuallyInverse m n) (h' : MutuallyInverse m n') :
  n = n'
  := left_inv_eq_right_inv h.mul_left h'.mul_right

/-- A matrix with an inverse has a determinant other than zero. -/
theorem determinant_ne_zero [Nontrivial S] (h : MutuallyInverse m n) :
  m.determinant ≠ 0
  := by
  intro hm
  have hdet := congrArg determinant h.mul_right
  rw [determinant_mul, hm, zero_mul, determinant_identity] at hdet
  apply zero_ne_one hdet

end MutuallyInverse

/-- A matrix times the transposed matrix of its cofactors is its determinant on the
diagonal. -/
theorem mul_adjugate [CommRing S] (m : Matrix4 S) :
  m * m.adjugate = identity.scale m.determinant
  := by
  obtain ⟨⟨_, _, _, _⟩, ⟨_, _, _, _⟩, ⟨_, _, _, _⟩, ⟨_, _, _, _⟩⟩ := m
  ext
  all_goals
    simp only [row₀_mul, row₁_mul, row₂_mul, row₃_mul, rowMul, Quad.dot, Quad.scale, scale, col₀,
      col₁, col₂, col₃, identity, diagonal, determinant, adjugate]
    ring

/-- The adjugate is an inverse up to the determinant. -/
theorem adjugate_mul [CommRing S] (m : Matrix4 S) :
  m.adjugate * m = identity.scale m.determinant
  := by
  obtain ⟨⟨_, _, _, _⟩, ⟨_, _, _, _⟩, ⟨_, _, _, _⟩, ⟨_, _, _, _⟩⟩ := m
  ext
  all_goals
    simp only [row₀_mul, row₁_mul, row₂_mul, row₃_mul, rowMul, Quad.dot, Quad.scale, scale, col₀,
      col₁, col₂, col₃, identity, diagonal, determinant, adjugate]
    ring

section Field

variable [Field S] {m n : Matrix4 S}

theorem scale_determinant_scale (h : m.determinant ≠ 0) :
  (identity.scale m.determinant).scale (1 / m.determinant) = (identity : Matrix4 S)
  := by
  ext
  all_goals
    simp only [scale, Quad.scale, identity, diagonal, zero_mul, one_mul]
  all_goals apply mul_one_div_cancel h

/-- The adjugate over the determinant is the inverse. -/
theorem mutuallyInverse_adjugate (h : m.determinant ≠ 0) :
  MutuallyInverse m (m.adjugate.scale (1 / m.determinant))
  := by
  constructor
  · rw [mul_scale, mul_adjugate]
    apply scale_determinant_scale h
  · rw [scale_mul, adjugate_mul]
    apply scale_determinant_scale h

variable [BEq S] [LawfulBEq S]

/-- With a determinant other than zero, the inverse is the adjugate over the determinant. -/
theorem inverse?_of_determinant_ne_zero (h : m.determinant ≠ 0) :
  m.inverse? = some (m.adjugate.scale (1 / m.determinant))
  := by
  have hd : (m.determinant == 0) = false := beq_eq_false_iff_ne.mpr h
  simp only [inverse?, hd, Bool.false_eq_true, ↓reduceIte]
  rfl

theorem inverse?_of_determinant_eq_zero (h : m.determinant = 0) :
  m.inverse? = none
  := by
  simp only [inverse?, h, beq_self_eq_true, ↓reduceIte]

/-- The inverse by cofactors is the inverse. -/
theorem inverse?_eq_some_iff :
  m.inverse? = some n ↔ MutuallyInverse m n
  := by
  constructor
  · intro h
    by_cases hd : m.determinant = 0
    · rw [inverse?_of_determinant_eq_zero hd] at h
      cases h
    · rw [inverse?_of_determinant_ne_zero hd] at h
      obtain rfl := Option.some.inj h
      apply mutuallyInverse_adjugate hd
  · intro h
    have hd := h.determinant_ne_zero
    rw [inverse?_of_determinant_ne_zero hd]
    congr 1
    apply (mutuallyInverse_adjugate hd).unique h

end Field

end RenderKernel.Matrix4
