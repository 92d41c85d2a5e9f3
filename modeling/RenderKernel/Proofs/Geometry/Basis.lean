import RenderKernel.Geometry.Frame
import RenderKernel.Proofs.Geometry.Motion
import RenderKernel.Proofs.Number.Real

/-!
# The completion of a basis

A vector is completed by a unit vector at a right angle to it, in the plane of the third axis and the
greater of the first two (`Vec.completeBasis_eq`), and by the cross product of the two.  The vector in
the plane is at least as long as the other one over the root of two, so that its direction exists
(`Vec.normSquared_le_two_mul_radicand`), and a unit vector is completed to a right-handed orthonormal
basis (`Vec.completeBasis_orthonormal`).
-/

universe u

namespace RenderKernel.Vec

/-! ### Vectors at right angles -/

section Products

variable {S : Type u} [CommRing S] {a b c : Vec S 3}

theorem dot_cross_left (a b : Vec S 3) :
  a.dot (a.cross b) = 0
  := by
  rw [dot_three, cross_x, cross_y, cross_z]
  ring

theorem dot_cross_right (a b : Vec S 3) :
  b.dot (a.cross b) = 0
  := by
  rw [dot_three, cross_x, cross_y, cross_z]
  ring

/-- The cross product may be taken in either order if it is taken between a vector and itself. -/
theorem cross_cross_comm (a b : Vec S 3) :
  (a.cross b).cross a = a.cross (b.cross a)
  := by
  apply ext_three
  all_goals
    simp only [cross_x, cross_y, cross_z]
    ring

/-- The cross product with a unit vector at a right angle is undone by another one. -/
theorem cross_cross (ha : a.IsUnit) (h : a.dot b = 0) :
  a.cross (b.cross a) = b
  := by
  have hunit : a.x * a.x + a.y * a.y + a.z * a.z = 1 := ha
  rw [dot_three] at h
  apply ext_three
  all_goals
    simp only [cross_x, cross_y, cross_z]
  · linear_combination b.x * hunit - a.x * h
  · linear_combination b.y * hunit - a.y * h
  · linear_combination b.z * hunit - a.z * h

/-- The cross product with a unit vector at a right angle has the same length. -/
theorem normSquared_cross (ha : a.IsUnit) (h : a.dot b = 0) :
  (a.cross b).normSquared = b.normSquared
  := by
  rw [normSquared_eq_dot, normSquared_eq_dot, cross_dot_cross, ← normSquared_eq_dot,
    isUnit_iff_normSquared.mp ha, h]
  ring

/-- Three vectors of length one at right angles to each other, of either handedness. -/
structure Orthonormal (a b c : Vec S 3) : Prop where
  isUnit₁ : a.IsUnit
  isUnit₂ : b.IsUnit
  isUnit₃ : c.IsUnit
  dot₁₂ : a.dot b = 0
  dot₁₃ : a.dot c = 0
  dot₂₃ : b.dot c = 0

theorem Orthonormal.rotate (h : Orthonormal a b c) :
  Orthonormal b c a
  := ⟨h.isUnit₂, h.isUnit₃, h.isUnit₁, h.dot₂₃, (dot_comm b a).trans h.dot₁₂,
    (dot_comm c a).trans h.dot₁₃⟩

end Products

/-! ### The vector in the plane -/

section Plane

variable {K : Type u} [Field K] [LinearOrder K] [Modulus K]

/-- A vector at a right angle to another one, in the plane of the third axis and the greater of the
first two. -/
def perpendicular (a : Vec K 3) : Vec K 3 :=
  if modulus a.y < modulus a.x then .of₃ a.z 0 (-a.x) else .of₃ 0 a.z (-a.y)

/-- The square of its length. -/
def radicand (a : Vec K 3) : K :=
  if modulus a.y < modulus a.x then a.x * a.x + a.z * a.z else a.y * a.y + a.z * a.z

theorem dot_perpendicular (a : Vec K 3) :
  a.perpendicular.dot a = 0
  := by
  rw [dot_three, perpendicular]
  split
  · change a.z * a.x + 0 * a.y + -a.x * a.z = 0
    ring
  · change 0 * a.x + a.z * a.y + -a.y * a.z = 0
    ring

theorem normSquared_perpendicular (a : Vec K 3) :
  a.perpendicular.normSquared = a.radicand
  := by
  rw [normSquared_three, perpendicular, radicand]
  split
  · change a.z * a.z + 0 * 0 + -a.x * -a.x = a.x * a.x + a.z * a.z
    ring
  · change 0 * 0 + a.z * a.z + -a.y * -a.y = a.y * a.y + a.z * a.z
    ring

variable [SquareRoot K]

theorem norm_perpendicular (a : Vec K 3) :
  a.perpendicular.norm = sqrt a.radicand
  := congrArg sqrt (normSquared_perpendicular a)

theorem completeBasis_snd (a : Vec K 3) :
  a.completeBasis.2 = a.perpendicular * (1 / sqrt a.radicand)
  := by
  rw [completeBasis, perpendicular, radicand]
  split
  · rw [of₃_scale, zero_mul]
  · rw [of₃_scale, zero_mul]

/-- The last vector of the basis is the direction of the vector in the plane. -/
theorem completeBasis_eq (a : Vec K 3) :
  a.completeBasis = (a.perpendicular.normalize.cross a, a.perpendicular.normalize)
  := by
  have hlast : a.completeBasis.2 = a.perpendicular.normalize := by
    rw [completeBasis_snd, ← norm_perpendicular, normalize_eq_scale]
  rw [← hlast]
  rfl

end Plane

/-! ### The basis -/

section Ordered

variable {K : Type u} [Field K] [LinearOrder K] [IsStrictOrderedRing K] [Modulus K] [ExactModulus K]
  {a : Vec K 3}

/-- The component that is left out is not the greatest one. -/
theorem normSquared_le_two_mul_radicand (a : Vec K 3) :
  a.normSquared ≤ 2 * a.radicand
  := by
  have hz := mul_self_nonneg a.z
  rw [normSquared_three, radicand, ExactModulus.modulus_eq, ExactModulus.modulus_eq]
  split
  · rename_i h
    have hless := abs_lt_iff_mul_self_lt.mp h
    linarith
  · rename_i h
    have hless := abs_le_iff_mul_self_le.mp (not_lt.mp h)
    linarith

/-- The radicand is positive for every vector but zero, because it has the greater one of the first two
components. -/
theorem radicand_pos (h : a ≠ Primitive.zeros) :
  0 < a.radicand
  := by
  have hpos := normSquared_pos h
  have hle := normSquared_le_two_mul_radicand a
  linarith

theorem perpendicular_ne_zeros (h : a ≠ Primitive.zeros) :
  a.perpendicular ≠ Primitive.zeros
  := by
  intro hzeros
  have hpos := radicand_pos h
  rw [← normSquared_perpendicular, hzeros, normSquared_zeros] at hpos
  exact lt_irrefl 0 hpos

variable [SquareRoot K] [ExactRoot K]

theorem sqrt_radicand_ne_zero (h : a ≠ Primitive.zeros) :
  sqrt a.radicand ≠ 0
  := by
  rw [← norm_perpendicular]
  exact norm_ne_zero (perpendicular_ne_zeros h)

/-- The vectors of the basis are at right angles, the last one has length one, and the one before it
the length of the vector that is completed. -/
theorem completeBasis_spec (h : a ≠ Primitive.zeros) :
  a.dot a.completeBasis.1 = 0 ∧ a.dot a.completeBasis.2 = 0
    ∧ a.completeBasis.1.dot a.completeBasis.2 = 0 ∧ a.completeBasis.2.IsUnit
    ∧ a.completeBasis.1.normSquared = a.normSquared
  := by
  have hunit := normalize_isUnit (perpendicular_ne_zeros h)
  have hdot : a.perpendicular.normalize.dot a = 0 := by
    rw [normalize_eq_scale, scale_dot, dot_perpendicular, zero_mul]
  rw [completeBasis_eq]
  refine ⟨dot_cross_right _ _, ?_, ?_, hunit, normSquared_cross hunit hdot⟩
  · rw [dot_comm, hdot]
  · rw [dot_comm, dot_cross_left]

/-- A unit vector is completed to a right-handed orthonormal basis. -/
theorem orthonormal_completeBasis (h : a.IsUnit) :
  Orthonormal a a.completeBasis.1 a.completeBasis.2
    ∧ a.cross a.completeBasis.1 = a.completeBasis.2
    ∧ a.completeBasis.1.cross a.completeBasis.2 = a
    ∧ a.completeBasis.2.cross a = a.completeBasis.1
  := by
  obtain ⟨hab, hac, hbc, hunit, hnorm⟩ := completeBasis_spec (ne_zeros_of_isUnit h)
  have hca : a.completeBasis.2.dot a = 0 := (dot_comm _ _).trans hac
  have hb : a.completeBasis.2.cross a = a.completeBasis.1 := rfl
  refine ⟨⟨h, ?_, hunit, hab, hac, hbc⟩, ?_, ?_, hb⟩
  · rw [isUnit_iff_normSquared, hnorm, isUnit_iff_normSquared.mp h]
  · rw [← hb, cross_cross h hac]
  · rw [← hb, cross_cross_comm, cross_cross hunit hca]

/-- The vector in the plane that is divided by its length is not short, so that every vector but zero
has two more at right angles to it and to each other, one as long as itself, one of length one.  A unit
vector is completed to a right-handed orthonormal basis. -/
theorem completeBasis_orthonormal (a : Vec K 3) :
  (a.normSquared / 2 ≤ a.radicand ∧ a.completeBasis.2 = a.perpendicular * (1 / sqrt a.radicand))
    ∧ (a ≠ Primitive.zeros → sqrt a.radicand ≠ 0
      ∧ a.dot a.completeBasis.1 = 0 ∧ a.dot a.completeBasis.2 = 0
      ∧ a.completeBasis.1.dot a.completeBasis.2 = 0
      ∧ a.completeBasis.2.norm = 1 ∧ a.completeBasis.1.norm = a.norm)
    ∧ (a.IsUnit → Orthonormal a a.completeBasis.1 a.completeBasis.2
      ∧ a.cross a.completeBasis.1 = a.completeBasis.2
      ∧ a.completeBasis.1.cross a.completeBasis.2 = a
      ∧ a.completeBasis.2.cross a = a.completeBasis.1)
  := by
  refine ⟨⟨?_, completeBasis_snd a⟩, ?_, orthonormal_completeBasis⟩
  · have hle := normSquared_le_two_mul_radicand a
    linarith
  · intro h
    obtain ⟨hab, hac, hbc, hunit, hnorm⟩ := completeBasis_spec h
    exact ⟨sqrt_radicand_ne_zero h, hab, hac, hbc, norm_of_isUnit hunit, congrArg sqrt hnorm⟩

end Ordered

/-- A vector whose first component is the greater one, and a unit vector whose first two components are
equal, so that it is completed in the plane of the second axis. -/
theorem completeBasis_orthonormal_real :
  let a : Vec ℝ 3 := .of₃ 4 3 0
  let u : Vec ℝ 3 := .of₃ (2 / 3) (2 / 3) (1 / 3)
  a ≠ Primitive.zeros ∧ a.dot a.completeBasis.1 = 0 ∧ a.completeBasis.2.norm = 1
    ∧ u.IsUnit ∧ Orthonormal u u.completeBasis.1 u.completeBasis.2
    ∧ u.cross u.completeBasis.1 = u.completeBasis.2
  := by
  intro a u
  have ha : a ≠ Primitive.zeros := by
    intro h
    have hx := congrArg Vec.x h
    rw [zeros_x] at hx
    exact four_ne_zero hx
  have hu : u.IsUnit := by
    change (2 / 3 * (2 / 3) + 2 / 3 * (2 / 3) + 1 / 3 * (1 / 3) : ℝ) = 1
    norm_num
  obtain ⟨-, hnonzero, -⟩ := completeBasis_orthonormal a
  obtain ⟨-, -, hunit⟩ := completeBasis_orthonormal u
  obtain ⟨-, hab, -, -, hnorm, -⟩ := hnonzero ha
  obtain ⟨horthonormal, hcross, -⟩ := hunit hu
  exact ⟨ha, hab, hnorm, hu, horthonormal, hcross⟩

end RenderKernel.Vec
