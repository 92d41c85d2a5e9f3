import Mathlib.Analysis.SpecialFunctions.Trigonometric.Basic
import RenderKernel.Proofs.Number.Exact

/-!
# Real numbers

The real numbers are exact: their square root, absolute value, sine and cosine are those of analysis.
-/

namespace RenderKernel

noncomputable instance : SquareRoot ℝ := ⟨Real.sqrt⟩

noncomputable instance : Modulus ℝ := ⟨abs⟩

noncomputable instance : Circular ℝ := ⟨Real.sin, Real.cos⟩

instance : ExactRoot ℝ where
  sqrt_nonneg x _ := Real.sqrt_nonneg x
  sqrt_mul_sqrt _ h := Real.mul_self_sqrt h

instance : ExactModulus ℝ where
  modulus_eq _ := rfl

instance : UnitCircle ℝ where
  sin_zero := Real.sin_zero
  cos_zero := Real.cos_zero
  sin_mul_sin_add_cos_mul_cos angle := by
    have h := Real.sin_sq_add_cos_sq angle
    rw [pow_two, pow_two] at h
    apply h

end RenderKernel
