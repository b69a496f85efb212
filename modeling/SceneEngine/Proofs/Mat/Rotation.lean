/-
Rotations keep angles, lengths and handedness.

About the first axis this is the identity of sine and cosine, told of the plane that turns
(`plane_dot`, `plane_cross`); the other axes are the same under other names of the
coordinates (`dot_of_cycle`, `IsRotation.of_cycle`). What keeps dot and cross products keeps them
when it is done after another that does, so it holds of the three rotations one after the
other (`dot_rotationEuler`, `isRotation_rotationEuler`). A model matrix scales, then rotates so,
then moves (`transformPoint_model`).

Where a matrix takes a vector, and which dot products it keeps, is told over any commutative ring
and asks of the angles at hand only.
-/
import Mathlib.Tactic.LinearCombination
import SceneEngine.Proofs.Mat.Affine

namespace SceneEngine.Mat

section Plane

variable {R : Type} [CommRing R] {s c : R}

/-- Turning a plane keeps its dot products. -/
theorem plane_dot (h : s ^ 2 + c ^ 2 = 1) (a b a' b' : R) :
    (c * a - s * b) * (c * a' - s * b') + (s * a + c * b) * (s * a' + c * b') = a * a' + b * b' := by
  linear_combination (a * a' + b * b') * h

/-- Turning a plane keeps its areas. -/
theorem plane_cross (h : s ^ 2 + c ^ 2 = 1) (a b a' b' : R) :
    (c * a - s * b) * (s * a' + c * b') - (s * a + c * b) * (c * a' - s * b') = a * b' - b * a' := by
  linear_combination (a * b' - b * a') * h

end Plane

section Ring

variable {R : Type} [RingScalar R]

/-! ## The three axes -/

theorem transformDirection_rotationX (angle : R) (d : Vec R 3) :
    (rotationX angle).transformDirection d =
      .of3 d.x (Scalar.cos angle * d.y - Scalar.sin angle * d.z)
        (Scalar.sin angle * d.y + Scalar.cos angle * d.z) := by
  rw [rotationX, transformDirection_ofRows4]
  simp only [Vec.truncate_of4, Vec.dot_three, Vec.x_of3, Vec.y_of3, Vec.z_of3]
  congr 1 <;> ring

theorem transformDirection_rotationY (angle : R) (d : Vec R 3) :
    (rotationY angle).transformDirection d =
      .of3 (Scalar.sin angle * d.z + Scalar.cos angle * d.x) d.y
        (Scalar.cos angle * d.z - Scalar.sin angle * d.x) := by
  rw [rotationY, transformDirection_ofRows4]
  simp only [Vec.truncate_of4, Vec.dot_three, Vec.x_of3, Vec.y_of3, Vec.z_of3]
  congr 1 <;> ring

theorem transformDirection_rotationZ (angle : R) (d : Vec R 3) :
    (rotationZ angle).transformDirection d =
      .of3 (Scalar.cos angle * d.x - Scalar.sin angle * d.y)
        (Scalar.sin angle * d.x + Scalar.cos angle * d.y) d.z := by
  rw [rotationZ, transformDirection_ofRows4]
  simp only [Vec.truncate_of4, Vec.dot_three, Vec.x_of3, Vec.y_of3, Vec.z_of3]
  congr 1 <;> ring

/-! ## Rotations under other names of the coordinates -/

/-- The coordinates in the same order around, begun one later. -/
def cycle {α : Type} (v : Vec α 3) : Vec α 3 := .of3 v.y v.z v.x

theorem cycle_injective {α : Type} {v w : Vec α 3} (h : cycle v = cycle w) : v = w :=
  Vec.ext_of3 (congrArg Vec.z h) (congrArg Vec.x h) (congrArg Vec.y h)

theorem dot_cycle (v w : Vec R 3) : (cycle v).dot (cycle w) = v.dot w := by
  simp only [cycle, Vec.dot_three, Vec.x_of3, Vec.y_of3, Vec.z_of3]
  ring

theorem cross_cycle (v w : Vec R 3) : (cycle v).cross (cycle w) = cycle (v.cross w) := rfl

theorem cycle_rotationY (angle : R) (d : Vec R 3) :
    cycle ((rotationY angle).transformDirection d) = (rotationX angle).transformDirection (cycle d) := by
  rw [transformDirection_rotationY, transformDirection_rotationX]
  rfl

theorem cycle_rotationZ (angle : R) (d : Vec R 3) :
    cycle ((rotationZ angle).transformDirection d) = (rotationY angle).transformDirection (cycle d) := by
  rw [transformDirection_rotationZ, transformDirection_rotationY]
  rfl

/-! ## Dot products -/

theorem dot_of_cycle {m k : Mat R 4 4}
    (hk : ∀ a b, (k.transformDirection a).dot (k.transformDirection b) = a.dot b)
    (h : ∀ d, cycle (m.transformDirection d) = k.transformDirection (cycle d)) (a b : Vec R 3) :
    (m.transformDirection a).dot (m.transformDirection b) = a.dot b := by
  rw [← dot_cycle, h, h, hk, dot_cycle]

section Angle

variable {angle : R} (h : Scalar.sin angle ^ 2 + Scalar.cos angle ^ 2 = 1) (a b : Vec R 3)

include h

theorem dot_rotationX :
    ((rotationX angle).transformDirection a).dot ((rotationX angle).transformDirection b) = a.dot b := by
  have hplane := plane_dot h a.y a.z b.y b.z
  simp only [transformDirection_rotationX, Vec.dot_three, Vec.x_of3, Vec.y_of3, Vec.z_of3]
  linear_combination hplane

theorem dot_rotationY :
    ((rotationY angle).transformDirection a).dot ((rotationY angle).transformDirection b) = a.dot b :=
  dot_of_cycle (dot_rotationX h) (cycle_rotationY angle) a b

theorem dot_rotationZ :
    ((rotationZ angle).transformDirection a).dot ((rotationZ angle).transformDirection b) = a.dot b :=
  dot_of_cycle (dot_rotationY h) (cycle_rotationZ angle) a b

end Angle

/-! ## Model matrices -/

theorem lastRow_rotationEuler (angles : Vec R 3) :
    (rotationEuler angles)[Fin.last 3] = Vec.lift .zero 1 :=
  lastRow_mul (lastRow_mul rfl rfl) rfl

/-- About Z first, then Y, then X. -/
theorem transformDirection_rotationEuler (angles d : Vec R 3) :
    (rotationEuler angles).transformDirection d = (rotationX angles.x).transformDirection
      ((rotationY angles.y).transformDirection ((rotationZ angles.z).transformDirection d)) := by
  rw [rotationEuler, transformDirection_mul_of_lastRow rfl, transformDirection_mul_of_lastRow rfl]

theorem transformPoint_rotationEuler (angles p : Vec R 3) :
    (rotationEuler angles).transformPoint p = (rotationEuler angles).transformDirection p := by
  rw [transformDirection_rotationEuler, rotationEuler, transformPoint_mul_of_lastRow rfl,
    transformPoint_mul_of_lastRow rfl, transformPoint_of_origin rfl, transformPoint_of_origin rfl,
    transformPoint_of_origin rfl]

theorem dot_rotationEuler {angles : Vec R 3}
    (h : ∀ k : Fin 3, Scalar.sin angles[k] ^ 2 + Scalar.cos angles[k] ^ 2 = 1) (a b : Vec R 3) :
    ((rotationEuler angles).transformDirection a).dot ((rotationEuler angles).transformDirection b) =
      a.dot b := by
  simp only [transformDirection_rotationEuler]
  exact (dot_rotationX (h 0) _ _).trans ((dot_rotationY (h 1) _ _).trans (dot_rotationZ (h 2) a b))

theorem transformPoint_displacement (offset p : Vec R 3) :
    (displacement offset).transformPoint p = p + offset := by
  rw [displacement, transformPoint_ofRows4]
  simp only [Vec.truncate_of4, Vec.w_of4, Vec.dot_three, Vec.x_of3, Vec.y_of3, Vec.z_of3, one_mul,
    zero_mul, add_zero, zero_add]
  rfl

theorem transformDirection_displacement (offset d : Vec R 3) :
    (displacement offset).transformDirection d = d := by
  rw [displacement, transformDirection_ofRows4]
  simp only [Vec.truncate_of4, Vec.dot_three, Vec.x_of3, Vec.y_of3, Vec.z_of3, one_mul, zero_mul,
    add_zero, zero_add]
  exact Vec.ext_of3 rfl rfl rfl

theorem transformDirection_scaling (factors d : Vec R 3) :
    (scaling factors).transformDirection d =
      .of3 (factors.x * d.x) (factors.y * d.y) (factors.z * d.z) := by
  rw [scaling, transformDirection_ofRows4]
  simp only [Vec.truncate_of4, Vec.dot_three, Vec.x_of3, Vec.y_of3, Vec.z_of3, zero_mul, add_zero,
    zero_add]

theorem lastRow_model (position rotation scale : Vec R 3) :
    (model position rotation scale)[Fin.last 3] = Vec.lift .zero 1 :=
  lastRow_mul rfl (lastRow_mul (lastRow_rotationEuler rotation) rfl)

/-- Scaled, rotated, then moved. -/
theorem transformPoint_model (position rotation scale p : Vec R 3) :
    (model position rotation scale).transformPoint p =
      (rotationEuler rotation).transformDirection
        (.of3 (scale.x * p.x) (scale.y * p.y) (scale.z * p.z)) + position := by
  rw [model, transformPoint_mul_of_lastRow (lastRow_mul (lastRow_rotationEuler rotation) rfl),
    transformPoint_displacement, transformPoint_mul_of_lastRow rfl, transformPoint_rotationEuler,
    transformPoint_of_origin rfl, transformDirection_scaling]

theorem transformDirection_model (position rotation scale d : Vec R 3) :
    (model position rotation scale).transformDirection d =
      (rotationEuler rotation).transformDirection
        (.of3 (scale.x * d.x) (scale.y * d.y) (scale.z * d.z)) := by
  rw [model, transformDirection_mul_of_lastRow (lastRow_mul (lastRow_rotationEuler rotation) rfl),
    transformDirection_displacement, transformDirection_mul_of_lastRow rfl, transformDirection_scaling]

end Ring

open scoped Exact

variable {K : Type} [Field K] [LinearOrder K] [FieldFunctions K]

/-- Keeps the origin in its place, so that points go where directions go. -/
structure Centred (m : Mat K 4 4) : Prop where
  affine : m.Affine
  point : ∀ p, m.transformPoint p = m.transformDirection p

/-- Turns space about the origin: dot and cross products are kept. -/
structure IsRotation (m : Mat K 4 4) : Prop extends Centred m where
  dot : ∀ a b, (m.transformDirection a).dot (m.transformDirection b) = a.dot b
  cross : ∀ a b, m.transformDirection (a.cross b) =
    (m.transformDirection a).cross (m.transformDirection b)

variable {m k : Mat K 4 4}

theorem Affine.centred (h : m.Affine) (hplace : m.displacementPart = .zero) : m.Centred where
  affine := h
  point := transformPoint_of_origin hplace

theorem Centred.mul (hm : m.Centred) (hk : k.Centred) : (m * k).Centred where
  affine := hm.affine.mul hk.affine
  point p := by rw [transformPoint_mul hk.affine, transformDirection_mul hk.affine, hk.point, hm.point]

theorem IsRotation.mul (hm : m.IsRotation) (hk : k.IsRotation) : (m * k).IsRotation where
  toCentred := hm.toCentred.mul hk.toCentred
  dot a b := by simp only [transformDirection_mul hk.affine, hm.dot, hk.dot]
  cross a b := by simp only [transformDirection_mul hk.affine, hm.cross, hk.cross]

theorem centred_rotationX (angle : K) : (rotationX angle).Centred := Affine.centred rfl rfl

theorem centred_rotationY (angle : K) : (rotationY angle).Centred := Affine.centred rfl rfl

theorem centred_rotationZ (angle : K) : (rotationZ angle).Centred := Affine.centred rfl rfl

theorem IsRotation.of_cycle (hk : k.IsRotation) (hm : m.Centred)
    (h : ∀ d, cycle (m.transformDirection d) = k.transformDirection (cycle d)) : m.IsRotation where
  toCentred := hm
  dot := dot_of_cycle hk.dot h
  cross a b := by
    apply cycle_injective
    rw [h, ← cross_cycle, hk.cross, ← h, ← h, cross_cycle]

section Angles

variable [ExactAngles K]

theorem isRotation_rotationX (angle : K) : (rotationX angle).IsRotation where
  toCentred := centred_rotationX angle
  dot := dot_rotationX (ExactAngles.sin_sq_add_cos_sq angle)
  cross a b := by
    have h := plane_cross (ExactAngles.sin_sq_add_cos_sq angle) a.y a.z b.y b.z
    simp only [transformDirection_rotationX, Vec.cross, Vec.x_of3, Vec.y_of3, Vec.z_of3]
    congr 1
    · linear_combination -h
    · ring
    · ring

theorem isRotation_rotationY (angle : K) : (rotationY angle).IsRotation :=
  (isRotation_rotationX angle).of_cycle (centred_rotationY angle) (cycle_rotationY angle)

theorem isRotation_rotationZ (angle : K) : (rotationZ angle).IsRotation :=
  (isRotation_rotationY angle).of_cycle (centred_rotationZ angle) (cycle_rotationZ angle)

theorem isRotation_rotationEuler (angles : Vec K 3) : (rotationEuler angles).IsRotation :=
  ((isRotation_rotationX angles.x).mul (isRotation_rotationY angles.y)).mul
    (isRotation_rotationZ angles.z)

end Angles

theorem affine_model (position rotation scale : Vec K 3) : (model position rotation scale).Affine :=
  lastRow_model position rotation scale

end SceneEngine.Mat
