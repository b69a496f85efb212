/-
The view of a camera is the inverse of its pose.

Rotation keeps the axes of space a basis to the right hand, and the camera looks along the
third of them at a point one unit away. So it always has a view, whose rows are the rotated
axes (`view_eq`). Reading a rotated point along rotated axes gives its coordinates back.
-/
import SceneEngine.Proofs.Mat.Rotation
import SceneEngine.Proofs.Mat.View
import SceneEngine.Camera

namespace SceneEngine

open scoped Exact

variable {K : Type} [Field K] [LinearOrder K] [FieldFunctions K]

theorem Vec.rightHanded_axes : Vec.RightHanded (.of3 1 0 0 : Vec K 3) (.of3 0 1 0) (.of3 0 0 1) where
  units := by simp [Vec.dot_three]
  right_angles := by simp [Vec.dot_three]
  handed := by simp [Vec.cross]

theorem Mat.IsRotation.rightHanded {m : Mat K 4 4} (hm : m.IsRotation) {u v w : Vec K 3}
    (h : Vec.RightHanded u v w) : Vec.RightHanded (m.transformDirection u) (m.transformDirection v)
      (m.transformDirection w) where
  units := by simpa only [hm.dot] using h.units
  right_angles := by simpa only [hm.dot] using h.right_angles
  handed := by rw [← hm.cross, h.handed]

namespace Transform

theorem neg_forward (t : Transform K) :
    -t.forward = t.rotationMatrix.transformDirection (.of3 0 0 1) := by
  have haxis : (.of3 0 0 1 : Vec K 3) = -.of3 0 0 (-1) := Vec.toFun_injective (by simp)
  rw [haxis, Mat.transformDirection_neg]
  rfl

variable [ExactAngles K]

theorem isRotation_rotationMatrix (t : Transform K) : t.rotationMatrix.IsRotation :=
  Mat.isRotation_rotationEuler _

/-- Right, up and back of a pose are the rotated axes. -/
theorem rightHanded_directions (t : Transform K) : Vec.RightHanded t.right t.up (-t.forward) := by
  rw [neg_forward]
  exact t.isRotation_rotationMatrix.rightHanded Vec.rightHanded_axes

/-- Read along the directions of the pose, what was rotated has the coordinates it had before. -/
theorem coordinates_of_rotated (t : Transform K) (p : Vec K 3) :
    let rotated := t.rotationMatrix.transformDirection p
    .of3 (t.right.dot rotated) (t.up.dot rotated) ((-t.forward).dot rotated) = p := by
  have hturn := t.isRotation_rotationMatrix
  have hright : t.right.dot (t.rotationMatrix.transformDirection p) = p.x := by
    rw [right, hturn.dot, Vec.dot_three]
    simp
  have hup : t.up.dot (t.rotationMatrix.transformDirection p) = p.y := by
    rw [up, hturn.dot, Vec.dot_three]
    simp
  have hback : (-t.forward).dot (t.rotationMatrix.transformDirection p) = p.z := by
    rw [neg_forward, hturn.dot, Vec.dot_three]
    simp
  exact Vec.ext_of3 hright hup hback

end Transform

namespace Camera

variable [IsStrictOrderedRing K] [ExactRoots K] [ExactAngles K] {t : Tolerance K}

theorem view_eq (hsmall : t.absolute < 1) (c : Camera K) (pose : Transform K) :
    c.view t pose =
      .ok (Mat.viewFrom pose.right pose.up (-pose.forward) pose.position) :=
  Mat.lookAt_of_rightHanded hsmall pose.rightHanded_directions (Vec.sub_add_self _ _)

/-- **A view undoes its pose.** Over an ordered field with exact roots and angles, and under any
tolerance below one, the right, up and backward directions of a pose are a basis to the right
hand, every camera has a view from there, and the view is the inverse, on both sides, of the
model matrix that puts the camera in its place. -/
theorem view_inverse_of_pose (hsmall : t.absolute < 1) (c : Camera K) (pose : Transform K) :
    Vec.RightHanded pose.right pose.up (-pose.forward) ∧
    ∃ v, c.view t pose = .ok v ∧
      v * Mat.model pose.position pose.rotation.toRadians (.splat 1) = Mat.identity ∧
      Mat.model pose.position pose.rotation.toRadians (.splat 1) * v = Mat.identity := by
  refine ⟨pose.rightHanded_directions, _, view_eq hsmall c pose, ?_⟩
  rw [Mat.mul_eq_identity_comm (a := Mat.model _ _ _), and_self]
  have hmodel := Mat.affine_model pose.position pose.rotation.toRadians (.splat 1)
  refine (Mat.affine_viewFrom.mul hmodel).ext Mat.affine_identity fun p => ?_
  have hunscaled : Vec.of3 ((Vec.splat 1 : Vec K 3).x * p.x) ((Vec.splat 1 : Vec K 3).y * p.y)
      ((Vec.splat 1 : Vec K 3).z * p.z) = p :=
    Vec.ext_of3 (one_mul _) (one_mul _) (one_mul _)
  rw [Mat.transformPoint_mul hmodel, Mat.transformPoint_model, hunscaled,
    Mat.transformPoint_viewFrom, Vec.add_sub_self, Mat.transformPoint_identity]
  exact pose.coordinates_of_rotated p

/-- Turned by a right angle about Z and then about X, a camera looks along Y. -/
theorem view_inverse_of_pose_turned :
    ∃ (pose : Transform ℝ) (v : Mat ℝ 4 4),
      pose = .new (.of3 1 2 3) (.of3 90 0 90) (.splat 2) ∧
      pose.right = .of3 0 0 1 ∧ pose.up = .of3 (-1) 0 0 ∧ pose.forward = .of3 0 1 0 ∧
      standard.view ⟨1 / 100000, 1 / 100000⟩ pose = .ok v ∧
      v * Mat.model (.of3 1 2 3) pose.rotation.toRadians (.splat 1) = Mat.identity := by
  let pose : Transform ℝ := .new (.of3 1 2 3) (.of3 90 0 90) (.splat 2)
  have hangles : pose.rotation.toRadians = .of3 (Real.pi / 2) 0 (Real.pi / 2) := by
    have hright : (90 : ℝ) * (Real.pi / 180) = Real.pi / 2 := by ring
    exact Vec.ext_of3 hright (zero_mul _) hright
  have hcos (x : ℝ) : Scalar.cos x = Real.cos x := rfl
  have hsin (x : ℝ) : Scalar.sin x = Real.sin x := rfl
  have hdirection (d : Vec ℝ 3) :
      pose.rotationMatrix.transformDirection d = .of3 (-d.y) (-d.z) d.x := by
    rw [Transform.rotationMatrix, hangles, Mat.rotationEuler,
      Mat.transformDirection_mul (Mat.centred_rotationZ _).affine,
      Mat.transformDirection_mul (Mat.centred_rotationY _).affine, Mat.transformDirection_rotationX,
      Mat.transformDirection_rotationY, Mat.transformDirection_rotationZ]
    simp [hcos, hsin]
  obtain ⟨_, v, hv, hinverse, _⟩ :=
    view_inverse_of_pose (t := ⟨1 / 100000, 1 / 100000⟩) (by norm_num) standard pose
  refine ⟨pose, v, rfl, ?_, ?_, ?_, hv, hinverse⟩
  · simp [Transform.right, hdirection]
  · simp [Transform.up, hdirection]
  · simp [Transform.forward, hdirection]

end Camera

end SceneEngine
