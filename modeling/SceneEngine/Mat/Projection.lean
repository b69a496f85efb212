/-
Looking at a scene: the view matrix of an eye and the two projections.

View space is right-handed with the eye at the origin looking down `-Z`. Both
projections map what they show into the cube from `-1` to `1`.
-/
import SceneEngine.Mat.Affine

namespace SceneEngine.Mat

variable {α ω : Type} [Scalar α] [Scalar ω] [Widening α ω]

/-- The view from `eye` toward `target`. Rows are the right, up and back directions. -/
def lookAt (t : Tolerance ω) (eye target up : Vec α 3) : Except (NumericError ω) (Mat α 4 4) := do
  let back ← (eye - target).normalize t
  let right ← ((up.cross back).normalize t).mapError fun _ => .degenerateBasis
  let trueUp := back.cross right
  return ofRows4
    (.of4 right.x right.y right.z (-right.dot eye))
    (.of4 trueUp.x trueUp.y trueUp.z (-trueUp.dot eye))
    (.of4 back.x back.y back.z (-back.dot eye))
    (.of4 0 0 0 1)

/-- The right-handed perspective with vertical field of view `fovY` in radians.

The checks ask whether a value lies outside its range, so a value that compares
with nothing is not caught by them. -/
def perspective (t : Tolerance ω) (fovY aspect near far : α) :
    Except (NumericError ω) (Mat α 4 4) :=
  let fov : ω := widen fovY
  if t.isZero fovY || decide (fov ≤ 0) || decide (Scalar.pi ≤ fov) then
    .error (.invalidProjection .fieldOfView)
  else if t.isZero aspect || decide (aspect ≤ 0) then
    .error (.invalidProjection .aspectRatio)
  else if near ≤ 0 then
    .error (.invalidProjection .nearPlane)
  else if decide (far ≤ near) || t.approxEq far near then
    .error (.invalidProjection .farPlane)
  else
    let focal := 1 / Scalar.tan (fovY / Scalar.two)
    let depth := near - far
    .ok (ofRows4
      (.of4 (focal / aspect) 0 0 0)
      (.of4 0 focal 0 0)
      (.of4 0 0 ((far + near) / depth) (Scalar.two * far * near / depth))
      (.of4 0 0 (-1) 0))

/-- The projection without perspective of an axis-aligned box. -/
def orthographic (t : Tolerance ω) (left right bottom top near far : α) :
    Except (NumericError ω) (Mat α 4 4) :=
  if t.approxEq left right || t.approxEq bottom top || t.approxEq near far then
    .error (.invalidProjection .emptyBox)
  else
    .ok (ofRows4
      (.of4 (Scalar.two / (right - left)) 0 0 (-(right + left) / (right - left)))
      (.of4 0 (Scalar.two / (top - bottom)) 0 (-(top + bottom) / (top - bottom)))
      (.of4 0 0 (-Scalar.two / (far - near)) (-(far + near) / (far - near)))
      (.of4 0 0 0 1))

end SceneEngine.Mat
