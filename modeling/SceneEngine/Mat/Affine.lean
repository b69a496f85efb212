/-
Placing things in space: displacement, scale and rotation as 4 × 4 matrices.

A model matrix scales first, then rotates about Z, Y and X in this order, then
translates. Normals go by the inverse transpose of its linear part.
-/
import SceneEngine.Mat.Elimination

namespace SceneEngine.Mat

variable {α : Type} [Scalar α]

/-- Moves every point by `offset`. -/
def displacement (offset : Vec α 3) : Mat α 4 4 :=
  ofRows4
    (.of4 1 0 0 offset.x)
    (.of4 0 1 0 offset.y)
    (.of4 0 0 1 offset.z)
    (.of4 0 0 0 1)

/-- Multiplies each coordinate by its factor. -/
def scaling (factors : Vec α 3) : Mat α 4 4 :=
  ofRows4
    (.of4 factors.x 0 0 0)
    (.of4 0 factors.y 0 0)
    (.of4 0 0 factors.z 0)
    (.of4 0 0 0 1)

/-- Rotation about X, in radians. -/
def rotationX (angle : α) : Mat α 4 4 :=
  let s := Scalar.sin angle
  let c := Scalar.cos angle
  ofRows4 (.of4 1 0 0 0) (.of4 0 c (-s) 0) (.of4 0 s c 0) (.of4 0 0 0 1)

/-- Rotation about Y, in radians. -/
def rotationY (angle : α) : Mat α 4 4 :=
  let s := Scalar.sin angle
  let c := Scalar.cos angle
  ofRows4 (.of4 c 0 s 0) (.of4 0 1 0 0) (.of4 (-s) 0 c 0) (.of4 0 0 0 1)

/-- Rotation about Z, in radians. -/
def rotationZ (angle : α) : Mat α 4 4 :=
  let s := Scalar.sin angle
  let c := Scalar.cos angle
  ofRows4 (.of4 c (-s) 0 0) (.of4 s c 0 0) (.of4 0 0 1 0) (.of4 0 0 0 1)

/-- Rotation about Z, then Y, then X, by the coordinates of `angles`. -/
def rotationEuler (angles : Vec α 3) : Mat α 4 4 :=
  rotationX angles.x * rotationY angles.y * rotationZ angles.z

/-- Scale, then rotation (in radians), then displacement. -/
def model (position rotation scale : Vec α 3) : Mat α 4 4 :=
  displacement position * (rotationEuler rotation * scaling scale)

/-- The linear part: the upper left 3 × 3 block. -/
def upperLeft (m : Mat α 4 4) : Mat α 3 3 :=
  ofFn fun i j => m[(i.castSucc : Fin 4)][(j.castSucc : Fin 4)]

/-- The image of a point (`w = 1`), its last coordinate dropped. -/
def transformPoint (m : Mat α 4 4) (p : Vec α 3) : Vec α 3 := (m * p.homogenize).truncate

/-- The image of a direction (`w = 0`). -/
def transformDirection (m : Mat α 4 4) (d : Vec α 3) : Vec α 3 :=
  (m * Vec.of4 d.x d.y d.z 0).truncate

/-- The displacement column. -/
def displacementPart (m : Mat α 4 4) : Vec α 3 := .of3 m.rows.x.w m.rows.y.w m.rows.z.w

variable {ω : Type} [Scalar ω] [Widening α ω]

/-- The inverse transpose of the linear part. -/
def normalMatrix (t : Tolerance ω) (m : Mat α 4 4) : Except (NumericError ω) (Mat α 3 3) :=
  (m.upperLeft.inverse t).map transposeInPlace

/-- The image of a point under a projection, divided by its last coordinate. -/
def projectPoint (t : Tolerance ω) (m : Mat α 4 4) (p : Vec α 3) :
    Except (NumericError ω) (Vec α 3) :=
  (m * p.homogenize).dehomogenize t

end SceneEngine.Mat
