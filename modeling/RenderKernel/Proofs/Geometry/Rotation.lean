import RenderKernel.Proofs.Geometry.Components
import RenderKernel.Proofs.Geometry.Matrix

/-!
# Translations, scalings and rotations

Translations compose by the addition of vectors, scalings by the multiplication of factors, and
rotations around one unit axis by the addition of angles: the sine and the cosine of the product
are those of the sum (`rotation_mul_rotation`).  The inverses are the translation by the
opposite vector, the scaling by the reciprocal factors, and the transposed rotation.
-/

universe u

namespace RenderKernel.Matrix4

variable {S : Type u} [CommRing S]

/-! ### Translations -/

theorem translation_mul_translation (a b : Vec S 3) :
  translation a * translation b = translation (a + b)
  := by
  ext
  all_goals
    simp only [row₀_mul, row₁_mul, row₂_mul, row₃_mul, rowMul, Quad.dot, col₀, col₁, col₂, col₃,
      translation, Vec.add_x, Vec.add_y, Vec.add_z]
    ring

theorem translation_zeros :
  translation (Primitive.zeros : Vec S 3) = identity
  := by
  ext
  all_goals
    simp only [translation, identity, diagonal, Vec.zeros_x, Vec.zeros_y, Vec.zeros_z]

theorem mutuallyInverse_translation (a : Vec S 3) :
  MutuallyInverse (translation a) (translation (-a))
  := by
  constructor
  · rw [translation_mul_translation, Vec.add_neg_eq_zeros, translation_zeros]
  · rw [translation_mul_translation, Vec.neg_add_eq_zeros, translation_zeros]

/-! ### Scalings -/

theorem diagonal_mul_diagonal (x y z w x' y' z' w' : S) :
  diagonal x y z w * diagonal x' y' z' w' = diagonal (x * x') (y * y') (z * z') (w * w')
  := by
  ext
  all_goals
    simp only [row₀_mul, row₁_mul, row₂_mul, row₃_mul, rowMul, Quad.dot, col₀, col₁, col₂, col₃,
      diagonal]
    ring

/-- A scaling is undone by the scaling with the reciprocal factors. -/
theorem mutuallyInverse_scaling {K : Type u} [Field K] {a : Vec K 3} (hx : a.x ≠ 0)
    (hy : a.y ≠ 0) (hz : a.z ≠ 0) :
  MutuallyInverse (scaling a) (scaling (.of₃ (1 / a.x) (1 / a.y) (1 / a.z)))
  := by
  constructor
  · calc
      scaling a * scaling (.of₃ (1 / a.x) (1 / a.y) (1 / a.z))
        = diagonal (a.x * (1 / a.x)) (a.y * (1 / a.y)) (a.z * (1 / a.z)) (1 * 1)
        := diagonal_mul_diagonal _ _ _ _ _ _ _ _
      _ = identity
        := by
        rw [mul_one_div_cancel hx, mul_one_div_cancel hy, mul_one_div_cancel hz, mul_one]
        rfl
  · calc
      scaling (.of₃ (1 / a.x) (1 / a.y) (1 / a.z)) * scaling a
        = diagonal (1 / a.x * a.x) (1 / a.y * a.y) (1 / a.z * a.z) (1 * 1)
        := diagonal_mul_diagonal _ _ _ _ _ _ _ _
      _ = identity
        := by
        rw [one_div_mul_cancel hx, one_div_mul_cancel hy, one_div_mul_cancel hz, mul_one]
        rfl

/-! ### Rotations -/

/-- Rotations around a unit axis are multiplied by adding their angles.  With `P` the projection onto the
axis and `U` the cross product with it, a rotation is `c + (1 - c) * P + s * U`, and `P * U = 0` and
`U * U = P - 1` hold for a unit axis only. -/
theorem rotation_mul_rotation {a : Vec S 3} (ha : a.IsUnit) (s c s' c' : S) :
  rotation a s c * rotation a s' c' = rotation a (s * c' + c * s') (c * c' - s * s')
  := by
  have h : a.x * a.x + a.y * a.y + a.z * a.z = 1 := ha
  ext
  all_goals
    simp only [row₀_mul, row₁_mul, row₂_mul, row₃_mul, rowMul, Quad.dot, col₀, col₁, col₂, col₃,
      rotation]
  · linear_combination ((1 - c) * (1 - c') * a.x * a.x - s * s') * h
  · linear_combination (1 - c) * (1 - c') * a.x * a.y * h
  · linear_combination (1 - c) * (1 - c') * a.x * a.z * h
  · ring
  · linear_combination (1 - c) * (1 - c') * a.y * a.x * h
  · linear_combination ((1 - c) * (1 - c') * a.y * a.y - s * s') * h
  · linear_combination (1 - c) * (1 - c') * a.y * a.z * h
  · ring
  · linear_combination (1 - c) * (1 - c') * a.z * a.x * h
  · linear_combination (1 - c) * (1 - c') * a.z * a.y * h
  · linear_combination ((1 - c) * (1 - c') * a.z * a.z - s * s') * h
  · ring
  · ring
  · ring
  · ring
  · ring

theorem rotation_zero_one (a : Vec S 3) :
  rotation a 0 1 = identity
  := by
  ext
  all_goals
    simp only [rotation, identity, diagonal]
  all_goals ring

/-- The transposed rotation turns the other way. -/
theorem transpose_rotation (a : Vec S 3) (s c : S) :
  (rotation a s c).transpose = rotation a (-s) c
  := by
  ext
  all_goals
    simp only [transpose, col₀, col₁, col₂, col₃, rotation]
  all_goals ring

/-- A rotation is undone by its transpose. -/
theorem mutuallyInverse_rotation {a : Vec S 3} (ha : a.IsUnit) {s c : S}
    (h : s * s + c * c = 1) :
  MutuallyInverse (rotation a s c) (rotation a s c).transpose
  := by
  have hsin : s * c + c * -s = 0 := by ring
  have hcos : c * c - s * -s = 1 := by linear_combination h
  have hsin' : -s * c + c * s = 0 := by ring
  have hcos' : c * c - -s * s = 1 := by linear_combination h
  rw [transpose_rotation]
  constructor
  · rw [rotation_mul_rotation ha, hsin, hcos, rotation_zero_one]
  · rw [rotation_mul_rotation ha, hsin', hcos', rotation_zero_one]

end RenderKernel.Matrix4
