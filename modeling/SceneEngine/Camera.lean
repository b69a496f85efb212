/-
A perspective camera. It sits on a transform and looks along its forward axis.
-/
import SceneEngine.Mat.Projection
import SceneEngine.Transform

namespace SceneEngine

/-- The lens and the picture of a camera. Sizes are in pixels. -/
structure Camera (α : Type) where
  fovDegrees : α
  near : α
  far : α
  viewportWidth : α
  viewportHeight : α
deriving DecidableEq

namespace Camera

variable {α ω : Type} [Scalar α] [Scalar ω] [Widening α ω]

/-- 45 degrees from 0.1 to 1000, on 800 × 600 pixels. -/
def standard : Camera α where
  fovDegrees := (45 : Nat)
  near := 1 / (10 : Nat)
  far := (1000 : Nat)
  viewportWidth := (800 : Nat)
  viewportHeight := (600 : Nat)

/-- Width over height. -/
def aspectRatio (c : Camera α) : α := c.viewportWidth / c.viewportHeight

/-- World to view space, the eye at the position of `t`. -/
def view (tolerance : Tolerance ω) (_ : Camera α) (t : Transform α) :
    Except (NumericError ω) (Mat α 4 4) :=
  Mat.lookAt tolerance t.position (t.position + t.forward) t.up

/-- View to clip space. -/
def projection (tolerance : Tolerance ω) (c : Camera α) : Except (NumericError ω) (Mat α 4 4) :=
  if 0 < c.viewportWidth ∧ 0 < c.viewportHeight then
    Mat.perspective tolerance (c.fovDegrees * Scalar.degree) c.aspectRatio c.near c.far
  else .error (.invalidProjection .viewport)

/-- The pixel a world point falls on, `x` growing right and `y` down from the top
left corner, and its depth from 0 at the far plane to 1 at the near one. -/
def worldToViewport (tolerance : Tolerance ω) (c : Camera α) (point : Vec α 3)
    (view projection : Mat α 4 4) : Except (NumericError ω) (Vec α 3) := do
  let ndc ← ((projection * view) * point.homogenize).dehomogenize tolerance
  return .of3
    ((ndc.x + 1) * c.viewportWidth / Scalar.two)
    ((1 - ndc.y) * c.viewportHeight / Scalar.two)
    ((1 - ndc.z) / Scalar.two)

end Camera

end SceneEngine
