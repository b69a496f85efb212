/-
The real numbers as a scalar.

Their roots are exact and their angles lie on the unit circle, so what is proved of ordered
fields with exact roots and angles is true of them.
-/
import Mathlib.Analysis.SpecialFunctions.Trigonometric.Basic
import SceneEngine.Proofs.Exact

namespace SceneEngine.Exact

/-- The functions of the real numbers. The remainder is that of the division that rounds toward
zero, and the tolerance that of single precision. -/
noncomputable scoped instance realFunctions : FieldFunctions ℝ where
  rem x y := x - y * (if 0 ≤ x / y then ⌊x / y⌋ else ⌈x / y⌉ : ℤ)
  sqrt := Real.sqrt
  sin := Real.sin
  cos := Real.cos
  tan := Real.tan
  pi := Real.pi
  degree := Real.pi / 180
  radian := 180 / Real.pi
  tolerance := ⟨1 / 100000, 1 / 100000⟩

scoped instance : ExactRoots ℝ where
  sqrt_nonneg x _ := Real.sqrt_nonneg x
  sqrt_mul_sqrt _ := Real.mul_self_sqrt

scoped instance : ExactAngles ℝ where
  sin_sq_add_cos_sq := Real.sin_sq_add_cos_sq

end SceneEngine.Exact
