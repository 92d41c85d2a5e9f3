import RenderKernel.Proofs.Geometry.Affine
import RenderKernel.Proofs.Geometry.Pairing

/-!
# Rigid motions

Translations, rotations, their products and inverses are rigid motions: they keep dot products,
lengths, distances and orientation, and map a normal as they map the vector with the same
components (`Motion.rigid`).  For the rotation around a unit axis this comes from its rows, which
are a right-handed system (`Matrix4.cross_rows_rotation`); products and inverses of rigid
transforms are rigid because transforms act.
-/

universe u

namespace RenderKernel

/-! ### Dot products and cross products -/

section Products

variable {S : Type u} [CommRing S]

namespace Vec

theorem cross_x (a b : Vec S 3) :
  (a.cross b).x = a.y * b.z - a.z * b.y
  := rfl

theorem cross_y (a b : Vec S 3) :
  (a.cross b).y = a.z * b.x - a.x * b.z
  := rfl

theorem cross_z (a b : Vec S 3) :
  (a.cross b).z = a.x * b.y - a.y * b.x
  := rfl

/-- The dot product of two cross products is the determinant of the dot products of their
factors. -/
theorem cross_dot_cross (a b a' b' : Vec S 3) :
  (a.cross b).dot (a'.cross b') = a.dot a' * b.dot b' - b.dot a' * a.dot b'
  := by
  simp only [dot_three, cross_x, cross_y, cross_z]
  ring

end Vec

/-- The pairing of a normal with a vector is the dot product of the vectors with their
components. -/
theorem Normal.dotVec_eq_dot (n : Normal S) (a : Vec S 3) :
  n.dotVec a = n.toVec.dot a
  := by
  rw [Vec.dot_three]
  rfl

end Products

/-! ### Rows of a rotation -/

namespace Matrix4

variable {S : Type u} [CommRing S]

/-- The rows of a rotation around a unit axis are a right-handed system: each of them is the cross
product of the two that follow it. -/
theorem cross_rows_rotation {a : Vec S 3} (ha : a.IsUnit) {s c : S} (h : s * s + c * c = 1) :
  (rotation a s c).row₀.vector = (rotation a s c).row₁.vector.cross (rotation a s c).row₂.vector
    ∧ (rotation a s c).row₁.vector
      = (rotation a s c).row₂.vector.cross (rotation a s c).row₀.vector
    ∧ (rotation a s c).row₂.vector
      = (rotation a s c).row₀.vector.cross (rotation a s c).row₁.vector
  := by
  have hunit : a.x * a.x + a.y * a.y + a.z * a.z = 1 := ha
  have hx (q : Quad S) : q.vector.x = q.x := rfl
  have hy (q : Quad S) : q.vector.y = q.y := rfl
  have hz (q : Quad S) : q.vector.z = q.z := rfl
  constructor
  · apply Vec.ext_three
    all_goals
      simp only [Vec.cross_x, Vec.cross_y, Vec.cross_z, hx, hy, hz, rotation]
    · linear_combination -c * (1 - c) * hunit - a.x * a.x * h
    · linear_combination (1 - c) * s * a.z * hunit - a.x * a.y * h
    · linear_combination -(1 - c) * s * a.y * hunit - a.x * a.z * h
  · constructor
    · apply Vec.ext_three
      all_goals
        simp only [Vec.cross_x, Vec.cross_y, Vec.cross_z, hx, hy, hz, rotation]
      · linear_combination -(1 - c) * s * a.z * hunit - a.x * a.y * h
      · linear_combination -c * (1 - c) * hunit - a.y * a.y * h
      · linear_combination (1 - c) * s * a.x * hunit - a.y * a.z * h
    · apply Vec.ext_three
      all_goals
        simp only [Vec.cross_x, Vec.cross_y, Vec.cross_z, hx, hy, hz, rotation]
      · linear_combination (1 - c) * s * a.y * hunit - a.x * a.z * h
      · linear_combination -(1 - c) * s * a.x * hunit - a.y * a.z * h
      · linear_combination -c * (1 - c) * hunit - a.z * a.z * h

end Matrix4

/-! ### Rigid transforms -/

namespace Transform

/-- The rotation around a unit axis by an angle with the given sine and cosine. -/
def turn {K : Type u} [Field K] (axis : Vec K 3) (s c : K) : Transform K :=
  ⟨.rotation axis s c, (Matrix4.rotation axis s c).transpose⟩

/-- The transform keeps its shape and orientation whatever it is applied to. -/
structure Rigid {K : Type u} [Field K] (t : Transform K) : Prop where
  coherent : t.Coherent
  affine : t.matrix.Affine
  /-- A normal is mapped as the vector with its components. -/
  applyNormal_eq (n : Normal K) : t.applyNormal n = .ofVec (t.applyVec n.toVec)
  applyVec_cross (a b : Vec K 3) : t.applyVec (a.cross b) = (t.applyVec a).cross (t.applyVec b)

namespace Rigid

variable {K : Type u} [Field K] {t t' : Transform K}

/-- The pairing with normals is kept, and normals are mapped as vectors. -/
theorem dot_applyVec (h : t.Rigid) (a b : Vec K 3) :
  (t.applyVec a).dot (t.applyVec b) = a.dot b
  := by
  calc
    (t.applyVec a).dot (t.applyVec b)
      = (t.applyNormal (.ofVec a)).dotVec (t.applyVec b)
      := by
      rw [h.applyNormal_eq, Normal.dotVec_eq_dot]
      rfl
    _ = (Normal.ofVec a).dotVec b := (keepsPairing_iff h.coherent).mpr (.inr h.affine.flat) _ _
    _ = a.dot b := Normal.dotVec_eq_dot _ _

/-- A rigid transform keeps the length of a vector. -/
theorem normSquared_applyVec (h : t.Rigid) (a : Vec K 3) :
  (t.applyVec a).normSquared = a.normSquared
  := by
  rw [Vec.normSquared_eq_dot, Vec.normSquared_eq_dot, h.dot_applyVec]

theorem distanceSquared_applyPoint (h : t.Rigid) (p q : Point K 3) :
  (t.applyPoint p).distanceSquared (t.applyPoint q) = p.distanceSquared q
  := by
  rw [Point.distanceSquared, applyPoint_sub h.affine, h.normSquared_applyVec]
  rfl

theorem translate (v : Vec K 3) :
  (translate v).Rigid
  := by
  constructor
  · apply coherent_translate
  · rfl
  · intro n
    rw [applyNormal_translate, applyVec_translate]
    rfl
  · intro a b
    rw [applyVec_translate, applyVec_translate, applyVec_translate]

theorem turn {axis : Vec K 3} (haxis : axis.IsUnit) {s c : K} (h : s * s + c * c = 1) :
  (turn axis s c).Rigid
  := by
  constructor
  · apply Matrix4.mutuallyInverse_rotation haxis h
  · rfl
  · intro n
    rfl
  · intro a b
    have hrow (q : Quad K) (a : Vec K 3) : q.covector.dotVec a = q.vector.dot a :=
      Normal.dotVec_eq_dot _ _
    have hcross {u v w : Vec K 3} (hw : w = u.cross v) :
        w.dot (a.cross b) = u.dot a * v.dot b - v.dot a * u.dot b := by
      rw [hw, Vec.cross_dot_cross]
    obtain ⟨hx, hy, hz⟩ := Matrix4.cross_rows_rotation haxis h
    simp only [applyVec_eq, Matrix4.mulQuad_toQuad, hrow]
    apply Vec.ext_three
    · apply hcross hx
    · apply hcross hy
    · apply hcross hz

/-- The identity is a rotation by nothing. -/
theorem identity :
  (identity : Transform K).Rigid
  := by
  have haxis : (1 : K) * 1 + 0 * 0 + 0 * 0 = 1 := by ring
  have hturn : Transform.turn (.of₃ 1 0 0 : Vec K 3) 0 1 = Transform.identity := by
    rw [Transform.turn, Matrix4.rotation_zero_one]
    rfl
  rw [← hturn]
  apply turn
  · apply haxis
  · ring

theorem mul (h : t.Rigid) (h' : t'.Rigid) :
  (t * t').Rigid
  := by
  constructor
  · apply h.coherent.mul h'.coherent
  · apply h.affine.mul h'.affine
  · intro n
    rw [applyNormal_mul (h.affine.of_mutuallyInverse h.coherent), h'.applyNormal_eq,
      h.applyNormal_eq, applyVec_mul h'.affine]
    rfl
  · intro a b
    rw [applyVec_mul h'.affine, applyVec_mul h'.affine, applyVec_mul h'.affine,
      h'.applyVec_cross, h.applyVec_cross]

theorem inverse (h : t.Rigid) :
  t.inverse.Rigid
  := by
  have haffine := h.affine.of_mutuallyInverse h.coherent
  have hback (a : Vec K 3) : t.applyVec (t.inverse.applyVec a) = a :=
    applyVec_inverse h.coherent.inverse haffine a
  constructor
  · apply h.coherent.inverse
  · apply haffine
  · intro n
    calc
      t.inverse.applyNormal n
        = t.inverse.applyNormal (t.applyNormal (.ofVec (t.inverse.applyVec n.toVec)))
        := by
        rw [h.applyNormal_eq]
        exact congrArg _ (congrArg Normal.ofVec (hback n.toVec)).symm
      _ = .ofVec (t.inverse.applyVec n.toVec) := applyNormal_inverse h.coherent h.affine _
  · intro a b
    calc
      t.inverse.applyVec (a.cross b)
        = t.inverse.applyVec (t.applyVec ((t.inverse.applyVec a).cross (t.inverse.applyVec b)))
        := by
        rw [h.applyVec_cross, hback, hback]
      _ = (t.inverse.applyVec a).cross (t.inverse.applyVec b)
        := applyVec_inverse h.coherent h.affine _

end Rigid

/-! ### Rotations around one axis -/

section Turn

variable {K : Type u} [Field K] {axis : Vec K 3}

/-- Rotations around one axis are multiplied by adding their angles. -/
theorem turn_mul_turn (haxis : axis.IsUnit) (s c s' c' : K) :
  turn axis s' c' * turn axis s c = turn axis (s * c' + c * s') (c * c' - s * s')
  := by
  have hsin : s' * c + c' * s = s * c' + c * s' := by ring
  have hcos : c' * c - s' * s = c * c' - s * s' := by ring
  have hback : -s * c' + c * -s' = -(s * c' + c * s') := by ring
  have hback' : c * c' - -s * -s' = c * c' - s * s' := by ring
  have hmatrix : Matrix4.rotation axis s' c' * Matrix4.rotation axis s c
      = Matrix4.rotation axis (s * c' + c * s') (c * c' - s * s') := by
    rw [Matrix4.rotation_mul_rotation haxis, hsin, hcos]
  have hinverse : (Matrix4.rotation axis s c).transpose * (Matrix4.rotation axis s' c').transpose
      = (Matrix4.rotation axis (s * c' + c * s') (c * c' - s * s')).transpose := by
    rw [Matrix4.transpose_rotation, Matrix4.transpose_rotation, Matrix4.transpose_rotation,
      Matrix4.rotation_mul_rotation haxis, hback, hback']
  apply Transform.ext
  · apply hmatrix
  · apply hinverse

/-- The axis of a rotation stays where it is. -/
theorem turn_applyVec_axis (haxis : axis.IsUnit) (s c : K) :
  (turn axis s c).applyVec axis = axis
  := by
  have hunit : axis.x * axis.x + axis.y * axis.y + axis.z * axis.z = 1 := haxis
  have hrow (q : Quad K) :
      q.covector.dotVec axis = q.x * axis.x + q.y * axis.y + q.z * axis.z := rfl
  have hx (q : Quad K) : q.vector.x = q.x := rfl
  have hy (q : Quad K) : q.vector.y = q.y := rfl
  have hz (q : Quad K) : q.vector.z = q.z := rfl
  rw [applyVec_eq, Matrix4.mulQuad_toQuad]
  apply Vec.ext_three
  all_goals
    simp only [turn, Matrix4.rotation, hrow, hx, hy, hz]
  · linear_combination (1 - c) * axis.x * hunit
  · linear_combination (1 - c) * axis.y * hunit
  · linear_combination (1 - c) * axis.z * hunit

end Turn

section Rotation

variable {K : Type u} [Field K] [BEq K] [LawfulBEq K] [SquareRoot K] [Circular K] [UnitCircle K]

/-- The identity that stands for a rotation by the angle zero is the rotation with the sine zero and
the cosine one. -/
theorem rotate_eq_turn (axis : Vec K 3) (angle : K) :
  rotate axis angle = turn axis.normalize (Circular.sin angle) (Circular.cos angle)
  := by
  rw [rotate, turn]
  split
  · rename_i hzero
    rw [eq_of_beq hzero, UnitCircle.sin_zero, UnitCircle.cos_zero, Matrix4.rotation_zero_one]
  · rfl

variable [LinearOrder K] [IsStrictOrderedRing K] [ExactRoot K] {axis : Vec K 3}

theorem Rigid.rotate (h : axis ≠ Primitive.zeros) (angle : K) :
  (rotate axis angle).Rigid
  := by
  rw [rotate_eq_turn]
  apply Rigid.turn (Vec.normalize_isUnit h) (UnitCircle.sin_mul_sin_add_cos_mul_cos angle)

/-- A rotation leaves its axis where it is. -/
theorem rotate_applyVec_axis (h : axis ≠ Primitive.zeros) (angle : K) :
  (Transform.rotate axis angle).applyVec axis = axis
  := by
  calc
    (Transform.rotate axis angle).applyVec axis
      = (Transform.rotate axis angle).applyVec (axis.normalize * axis.norm)
      := by rw [Vec.normalize_mul_norm h]
    _ = axis.normalize * axis.norm
      := by rw [applyVec_scale, rotate_eq_turn, turn_applyVec_axis (Vec.normalize_isUnit h)]
    _ = axis := Vec.normalize_mul_norm h

/-- Only the direction of the axis matters. -/
theorem rotate_mul_axis (axis : Vec K 3) {k : K} (hk : 0 < k) (angle : K) :
  Transform.rotate (axis * k) angle = Transform.rotate axis angle
  := by
  rw [rotate_eq_turn, rotate_eq_turn, Vec.normalize_mul hk]

end Rotation

/-! ### Motions -/

section Motion

variable {K : Type u} [Field K] [BEq K] [SquareRoot K] [Circular K]

/-- The transforms that are built from translations and rotations by products and inverses. -/
inductive Motion : Transform K → Prop
  | identity : Motion identity
  | translate (v : Vec K 3) : Motion (translate v)
  | rotate {axis : Vec K 3} (angle : K) : axis ≠ Primitive.zeros → Motion (rotate axis angle)
  | inverse {t : Transform K} : Motion t → Motion t.inverse
  | mul {t t' : Transform K} : Motion t → Motion t' → Motion (t * t')

variable [LawfulBEq K] [LinearOrder K] [IsStrictOrderedRing K] [ExactRoot K] [UnitCircle K]

/-- Every motion is rigid, by induction on how it is built. -/
theorem Motion.rigid {t : Transform K} (h : t.Motion) :
  t.Rigid
  := by
  induction h with
  | identity => apply Rigid.identity
  | translate v => apply Rigid.translate
  | rotate angle h => apply Rigid.rotate h
  | inverse _ ih => apply ih.inverse
  | mul _ _ ih ih' => apply ih.mul ih'

/-- Motions keep dot products, lengths, distances and orientation, and map normals as vectors.
Rotations leave their axis where it is, depend on its direction only, and follow one another by
adding their angles. -/
theorem motions_and_rotations :
  (∀ t : Transform K, t.Motion →
      (∀ a b : Vec K 3, (t.applyVec a).dot (t.applyVec b) = a.dot b)
        ∧ (∀ a : Vec K 3, (t.applyVec a).normSquared = a.normSquared)
        ∧ (∀ p q : Point K 3,
            (t.applyPoint p).distanceSquared (t.applyPoint q) = p.distanceSquared q)
        ∧ (∀ a b : Vec K 3, t.applyVec (a.cross b) = (t.applyVec a).cross (t.applyVec b))
        ∧ (∀ n : Normal K, t.applyNormal n = .ofVec (t.applyVec n.toVec)))
    ∧ (∀ axis : Vec K 3, axis ≠ Primitive.zeros →
      (∀ angle : K, (Transform.rotate axis angle).applyVec axis = axis)
        ∧ (∀ k angle : K, 0 < k → Transform.rotate (axis * k) angle = Transform.rotate axis angle)
        ∧ (∀ angle : K, Transform.rotate axis angle
            = turn axis.normalize (Circular.sin angle) (Circular.cos angle))
        ∧ (∀ s c s' c' : K, turn axis.normalize s' c' * turn axis.normalize s c
            = turn axis.normalize (s * c' + c * s') (c * c' - s * s'))
        ∧ (∀ angle angle' sum : K,
            Circular.sin sum = Circular.sin angle * Circular.cos angle'
              + Circular.cos angle * Circular.sin angle' →
            Circular.cos sum = Circular.cos angle * Circular.cos angle'
              - Circular.sin angle * Circular.sin angle' →
            Transform.rotate axis angle' * Transform.rotate axis angle
              = Transform.rotate axis sum))
  := by
  constructor
  · intro t ht
    have hrigid := ht.rigid
    use hrigid.dot_applyVec, hrigid.normSquared_applyVec, hrigid.distanceSquared_applyPoint,
      hrigid.applyVec_cross, hrigid.applyNormal_eq
  · intro axis haxis
    use rotate_applyVec_axis haxis, fun k angle hk => rotate_mul_axis axis hk angle,
      rotate_eq_turn axis, turn_mul_turn (Vec.normalize_isUnit haxis)
    intro angle angle' sum hsin hcos
    rw [rotate_eq_turn, rotate_eq_turn, rotate_eq_turn,
      turn_mul_turn (Vec.normalize_isUnit haxis), hsin, hcos]

end Motion

theorem oblique_motion_and_rotation :
  oblique.Motion
    ∧ (oblique.applyVec (.of₃ 1 0 0)).dot (oblique.applyVec (.of₃ 3 4 5))
      = Vec.dot (.of₃ 1 0 0 : Vec ℝ 3) (.of₃ 3 4 5)
    ∧ (.of₃ 1 2 2 : Vec ℝ 3) ≠ Primitive.zeros
    ∧ (Transform.rotate (.of₃ 1 2 2 : Vec ℝ 3) 1).applyVec (.of₃ 1 2 2) = .of₃ 1 2 2
    ∧ (0 : ℝ) < 5
    ∧ Transform.rotate ((.of₃ 1 2 2 : Vec ℝ 3) * (5 : ℝ)) 1 = Transform.rotate (.of₃ 1 2 2) 1
    ∧ Transform.rotate (.of₃ 1 2 2 : Vec ℝ 3) 2 * Transform.rotate (.of₃ 1 2 2) 1
      = Transform.rotate (.of₃ 1 2 2) 3
  := by
  have haxis : (.of₃ 1 2 2 : Vec ℝ 3) ≠ Primitive.zeros := by
    intro h
    have hx := congrArg Vec.x h
    rw [Vec.zeros_x] at hx
    apply one_ne_zero hx
  have hmotion : oblique.Motion :=
    .inverse (.mul (.rotate 1 haxis) (.translate (.of₃ 1 2 3)))
  have hsum : (3 : ℝ) = 1 + 2 := by norm_num
  have hsin : Circular.sin (3 : ℝ)
      = Circular.sin 1 * Circular.cos 2 + Circular.cos 1 * Circular.sin 2 := by
    rw [hsum]
    apply Real.sin_add
  have hcos : Circular.cos (3 : ℝ)
      = Circular.cos 1 * Circular.cos 2 - Circular.sin 1 * Circular.sin 2 := by
    rw [hsum]
    apply Real.cos_add
  obtain ⟨hmotions, hrotations⟩ := motions_and_rotations (K := ℝ)
  obtain ⟨hfixed, hdirection, -, -, hadd⟩ := hrotations _ haxis
  use hmotion, (hmotions _ hmotion).1 _ _, haxis, hfixed 1, by norm_num
  use hdirection 5 1 (by norm_num), hadd 1 2 3 hsin hcos

end Transform

end RenderKernel
