/-
What a camera shows.

Behind an affine view every point has a place in view space, and the projection divides by
how far ahead of the eye that place is (`worldToViewport_eq`). So the pixel of a point is told
by its slopes, to the right and upward, and its depth by the distance ahead alone.

The depth falls strictly with the distance, from one at the near plane to zero at the far
plane. What is between the planes and what is closer both follow from that (`depth_le_iff`).
-/
import Mathlib.Analysis.Real.Pi.Bounds
import Mathlib.Tactic.FieldSimp
import Mathlib.Tactic.Linarith
import Mathlib.Tactic.NormNum
import SceneEngine.Proofs.Camera.Projection
import SceneEngine.Proofs.Exact.Reals
import SceneEngine.Proofs.Mat.Rotation

namespace SceneEngine

open scoped Exact

variable {K : Type} [Field K] [LinearOrder K] [FieldFunctions K]

theorem Vec.dehomogenize_of4 (t : Tolerance K) (x y z w : K) : (of4 x y z w).dehomogenize t =
    if |w| ≤ t.absolute then .error .pointAtInfinity else .ok (of3 (x / w) (y / w) (z / w)) := by
  unfold dehomogenize
  simp only [Exact.isZero_iff]
  rfl

namespace Mat

theorem ofRows4_mul_lift (a b c d : Vec K 4) (v : Vec K 3) (w : K) :
    ofRows4 a b c d * v.lift w = .of4 (a.truncate.dot v + a.w * w) (b.truncate.dot v + b.w * w)
      (c.truncate.dot v + c.w * w) (d.truncate.dot v + d.w * w) := by
  rw [← dot_lift, ← dot_lift, ← dot_lift, ← dot_lift]
  ext i
  rw [getElem_mulVec]
  fin_cases i <;> rfl

theorem frustum_mul_lift (fovY aspect near far : K) (v : Vec K 3) :
    frustum fovY aspect near far * v.lift 1 =
      .of4 (1 / Scalar.tan (fovY / Scalar.two) / aspect * v.x) (1 / Scalar.tan (fovY / Scalar.two) * v.y)
        ((far + near) / (near - far) * v.z + Scalar.two * far * near / (near - far)) (-v.z) := by
  rw [frustum, ofRows4_mul_lift]
  simp [Vec.dot_three]

end Mat

namespace Camera

/-- How far up the camera sees at a distance of one. -/
def slope (c : Camera K) : K := FieldFunctions.tan (c.fovDegrees * FieldFunctions.degree / Scalar.two)

/-- The depth of a point `distance` ahead. -/
def depth (c : Camera K) (distance : K) : K := c.near / (c.far - c.near) * (c.far / distance - 1)

/-- The pixel and the depth of a point of view space. -/
def pixel (c : Camera K) (v : Vec K 3) : Vec K 3 :=
  .of3 ((v.x / (-v.z * (c.slope * c.aspectRatio)) + 1) * c.viewportWidth / Scalar.two)
    ((-v.y / (-v.z * c.slope) + 1) * c.viewportHeight / Scalar.two)
    (c.depth (-v.z))

variable {t : Tolerance K} {c : Camera K} {view projection : Mat K 4 4}

theorem depth_far (hfar : c.far ≠ 0) : c.depth c.far = 0 := by
  rw [depth, div_self hfar, sub_self, mul_zero]

/-! ## The picture of a point -/

/-- The clip point of a world point is that of its place in view space. -/
theorem clip_eq (hview : view.Affine) (p : Vec K 3) :
    projection * view * p.homogenize = projection * (view.transformPoint p).lift 1 := by
  have hplace : view * p.lift 1 = (view.transformPoint p).lift 1 := (Mat.lift_truncate hview p 1).symm
  rw [← hplace]
  exact Mat.mul_mulVec projection view (p.lift 1)

variable [IsStrictOrderedRing K]

theorem worldToViewport_eq (hview : view.Affine) (hprojection : c.projection t = .ok projection)
    (p : Vec K 3) :
    (|(view.transformPoint p).z| ≤ t.absolute →
      c.worldToViewport t p view projection = .error .pointAtInfinity) ∧
    (¬ |(view.transformPoint p).z| ≤ t.absolute → ∃ s, c.worldToViewport t p view projection = .ok s ∧
      ((view.transformPoint p).z ≠ 0 → s = c.pixel (view.transformPoint p))) := by
  obtain ⟨-, hpermitted, rfl⟩ := projection_eq_ok_iff.mp hprojection
  have hplanes : c.far - c.near ≠ 0 := (sub_pos.mpr (not_le.mp hpermitted.farPlane.1)).ne'
  have hback : c.near - c.far ≠ 0 := by
    rw [← neg_sub]
    exact neg_ne_zero.mpr hplanes
  unfold worldToViewport
  rw [clip_eq hview, Mat.frustum_mul_lift, Vec.dehomogenize_of4, abs_neg]
  generalize view.transformPoint p = v
  refine ⟨fun hflat => by rw [if_pos hflat]; rfl, fun hflat => ?_⟩
  rw [if_neg hflat]
  refine ⟨_, rfl, fun hz => ?_⟩
  have hright : 1 / c.slope / c.aspectRatio * v.x / -v.z = v.x / (-v.z * (c.slope * c.aspectRatio)) := by
    simp only [div_eq_mul_inv, mul_inv]
    ring
  have hup : 1 - 1 / c.slope * v.y / -v.z = -v.y / (-v.z * c.slope) + 1 := by
    simp only [div_eq_mul_inv, mul_inv]
    ring
  have hdepth : (1 - ((c.far + c.near) / (c.near - c.far) * v.z +
      Scalar.two * c.far * c.near / (c.near - c.far)) / -v.z) / Scalar.two = c.depth (-v.z) := by
    rw [depth, Exact.two_eq]
    field_simp
    ring
  rw [pixel, ← hright, ← hup, ← hdepth]
  rfl

theorem exists_error_iff (hview : view.Affine) (hprojection : c.projection t = .ok projection)
    (p : Vec K 3) : (∃ e, c.worldToViewport t p view projection = .error e) ↔
      |(view.transformPoint p).z| ≤ t.absolute := by
  obtain ⟨hnone, hsome⟩ := worldToViewport_eq hview hprojection p
  refine ⟨fun ⟨e, herror⟩ => not_not.mp fun hflat => ?_, fun hflat => ⟨_, hnone hflat⟩⟩
  obtain ⟨s, hs, -⟩ := hsome hflat
  rw [hs] at herror
  cases herror

theorem eq_pixel (hview : view.Affine) (hprojection : c.projection t = .ok projection) {p s : Vec K 3}
    (hok : c.worldToViewport t p view projection = .ok s) (hahead : (view.transformPoint p).z < 0) :
    s = c.pixel (view.transformPoint p) := by
  obtain ⟨hnone, hsome⟩ := worldToViewport_eq hview hprojection p
  have hflat : ¬ |(view.transformPoint p).z| ≤ t.absolute := fun hflat => by
    rw [hnone hflat] at hok
    cases hok
  obtain ⟨r, hr, heq⟩ := hsome hflat
  rw [hok] at hr
  exact (Except.ok.inj hr).trans (heq hahead.ne)

/-! ## Depth and distance -/

section Depth

variable {d e : K}

theorem depth_lt_iff (hnear : 0 < c.near) (hfar : c.near < c.far) (hd : 0 < d) (he : 0 < e) :
    c.depth d < c.depth e ↔ e < d := by
  have hscale : 0 < c.near / (c.far - c.near) := div_pos hnear (sub_pos.mpr hfar)
  rw [depth, depth, mul_lt_mul_iff_right₀ hscale, sub_lt_sub_iff_right,
    div_lt_div_iff_of_pos_left (hnear.trans hfar) hd he]

theorem depth_le_iff (hnear : 0 < c.near) (hfar : c.near < c.far) (hd : 0 < d) (he : 0 < e) :
    c.depth d ≤ c.depth e ↔ e ≤ d := by
  rw [← not_lt, depth_lt_iff hnear hfar he hd, not_lt]

theorem depth_eq_iff (hnear : 0 < c.near) (hfar : c.near < c.far) (hd : 0 < d) (he : 0 < e) :
    c.depth d = c.depth e ↔ d = e := by
  rw [le_antisymm_iff, depth_le_iff hnear hfar hd he, depth_le_iff hnear hfar he hd, and_comm,
    ← le_antisymm_iff]

theorem depth_near (hnear : 0 < c.near) (hfar : c.near < c.far) : c.depth c.near = 1 := by
  have hplanes : c.far - c.near ≠ 0 := (sub_pos.mpr hfar).ne'
  rw [depth]
  field_simp

end Depth

/-! ## The picture and its edges -/

/-- A coordinate that is scaled to the size of the picture stays in it between two opposite sides. -/
theorem scaled_mem_iff {x half size : K} (hhalf : 0 < half) (hsize : 0 < size) :
    (0 ≤ (x / half + 1) * size / Scalar.two ∧ (x / half + 1) * size / Scalar.two ≤ size) ↔
      |x| ≤ half := by
  rw [Exact.two_eq]
  have hlow : 0 ≤ (x / half + 1) * size / 2 ↔ -1 ≤ x / half := by
    rw [le_div_iff₀ two_pos, zero_mul, mul_nonneg_iff_of_pos_right hsize, neg_le_iff_add_nonneg]
  have hhigh : (x / half + 1) * size / 2 ≤ size ↔ x / half ≤ 1 := by
    rw [div_le_iff₀ two_pos, mul_comm size, mul_le_mul_iff_left₀ hsize, ← one_add_one_eq_two,
      add_le_add_iff_right]
  rw [hlow, hhigh, le_div_iff₀ hhalf, div_le_one hhalf, neg_one_mul, abs_le]

/-- **The picture shows the frustum.** Over an ordered field, for every camera that has a projection
and looks out at a positive angle, and behind every affine view: a point has no picture exactly
when it is as near to the plane of the eye as the absolute bound. The picture of a point ahead
has its depth between zero and one exactly when the point is between the planes, one at the near
plane and zero at the far plane; it lies on the viewport exactly when the point is between
the side planes; of two points the closer has the greater depth; and of two points at the
same distance the higher is further up, toward zero. -/
theorem worldToViewport_frustum (hview : view.Affine) (hprojection : c.projection t = .ok projection)
    (hslope : 0 < c.slope) :
    (∀ p, (∃ e, c.worldToViewport t p view projection = .error e) ↔
      |(view.transformPoint p).z| ≤ t.absolute) ∧
    (∀ p s, c.worldToViewport t p view projection = .ok s → (view.transformPoint p).z < 0 →
      let v := view.transformPoint p
      ((0 ≤ s.z ∧ s.z ≤ 1) ↔ c.near ≤ -v.z ∧ -v.z ≤ c.far) ∧
      (s.z = 1 ↔ -v.z = c.near) ∧ (s.z = 0 ↔ -v.z = c.far) ∧
      ((0 ≤ s.x ∧ s.x ≤ c.viewportWidth) ↔ |v.x| ≤ -v.z * (c.slope * c.aspectRatio)) ∧
      ((0 ≤ s.y ∧ s.y ≤ c.viewportHeight) ↔ |v.y| ≤ -v.z * c.slope)) ∧
    ∀ p q s r, c.worldToViewport t p view projection = .ok s →
      c.worldToViewport t q view projection = .ok r →
      (view.transformPoint p).z < 0 → (view.transformPoint q).z < 0 →
      let v := view.transformPoint p
      let w := view.transformPoint q
      (r.z < s.z ↔ -v.z < -w.z) ∧ (v.z = w.z → (s.y < r.y ↔ w.y < v.y)) := by
  obtain ⟨⟨hwidth, hheight⟩, hpermitted, -⟩ := projection_eq_ok_iff.mp hprojection
  have hnear : 0 < c.near := not_le.mp hpermitted.nearPlane
  have hfar : c.near < c.far := not_le.mp hpermitted.farPlane.1
  have hshape : 0 < c.aspectRatio := not_le.mp hpermitted.shape.2
  refine ⟨exists_error_iff hview hprojection, fun p s hok hahead => ?_, fun p q s r hs hr hp hq => ?_⟩
  · rw [eq_pixel hview hprojection hok hahead]
    have hd : 0 < -(view.transformPoint p).z := neg_pos.mpr hahead
    have hzero := depth_far (hnear.trans hfar).ne'
    have hone := depth_near hnear hfar
    refine ⟨?_, ?_, ?_, scaled_mem_iff (mul_pos hd (mul_pos hslope hshape)) hwidth, ?_⟩
    · rw [← hzero, ← hone, and_comm]
      exact and_congr (depth_le_iff hnear hfar hd hnear) (depth_le_iff hnear hfar (hnear.trans hfar) hd)
    · rw [← hone]
      exact depth_eq_iff hnear hfar hd hnear
    · rw [← hzero]
      exact depth_eq_iff hnear hfar hd (hnear.trans hfar)
    · rw [← abs_neg]
      exact scaled_mem_iff (mul_pos hd hslope) hheight
  · rw [eq_pixel hview hprojection hs hp, eq_pixel hview hprojection hr hq]
    have hdp : 0 < -(view.transformPoint p).z := neg_pos.mpr hp
    refine ⟨depth_lt_iff hnear hfar (neg_pos.mpr hq) hdp, fun hsame => ?_⟩
    simp only [pixel, Exact.two_eq, Vec.y_of3, ← hsame]
    rw [div_lt_div_iff_of_pos_right two_pos, mul_lt_mul_iff_left₀ hheight, add_lt_add_iff_right,
      div_lt_div_iff_of_pos_right (mul_pos hdp hslope), neg_lt_neg_iff]

/-- A camera with a right angle of view, moved one back: a point halfway between the planes, and one
beside the eye. -/
theorem worldToViewport_frustum_halfway :
    ∃ (c : Camera ℝ) (projection : Mat ℝ 4 4) (s : Vec ℝ 3),
      c = ⟨90, 1, 3, 4, 2⟩ ∧ c.projection ⟨1 / 100000, 1 / 100000⟩ = .ok projection ∧
      c.worldToViewport ⟨1 / 100000, 1 / 100000⟩ (.of3 1 1 (-1)) (.displacement (.of3 0 0 (-1)))
        projection = .ok s ∧
      (0 ≤ s.x ∧ s.x ≤ 4) ∧ (0 ≤ s.y ∧ s.y ≤ 2) ∧ (0 ≤ s.z ∧ s.z ≤ 1) ∧
      ∃ e, c.worldToViewport ⟨1 / 100000, 1 / 100000⟩ (.of3 5 7 1) (.displacement (.of3 0 0 (-1)))
        projection = .error e := by
  let t : Tolerance ℝ := ⟨1 / 100000, 1 / 100000⟩
  let c : Camera ℝ := ⟨90, 1, 3, 4, 2⟩
  let view : Mat ℝ 4 4 := .displacement (.of3 0 0 (-1))
  have hview : view.Affine := rfl
  have hright : (90 : ℝ) * (Real.pi / 180) = Real.pi / 2 := by ring
  have hslope : c.slope = 1 := by
    show Real.tan (90 * (Real.pi / 180) / Scalar.two) = 1
    rw [Exact.two_eq, hright, div_div]
    norm_num [Real.tan_pi_div_four]
  have hpi := Real.pi_gt_three
  have hpermitted : Mat.Permitted t (c.fovDegrees * FieldFunctions.degree) c.aspectRatio c.near
      c.far := by
    have hfov : c.fovDegrees * FieldFunctions.degree = Real.pi / 2 := hright
    have hshape : c.aspectRatio = 2 := by norm_num [c, aspectRatio]
    have hzero {x : ℝ} (hx : 1 / 100000 < x) : t.isZero x = false := by
      rw [← Bool.not_eq_true, Exact.isZero_iff, not_le]
      exact hx.trans_le (le_abs_self x)
    rw [hfov, hshape]
    refine ⟨⟨hzero (by linarith), ?_, ?_⟩, ⟨hzero (by norm_num), by norm_num⟩, by norm_num,
      by norm_num, ?_⟩
    · show ¬ Real.pi / 2 ≤ 0
      linarith
    · show ¬ Real.pi ≤ Real.pi / 2
      linarith
    · rw [← Bool.not_eq_true, Exact.approxEq_iff]
      norm_num [t, c]
  have hprojection := projection_eq_ok_iff.mpr ⟨⟨by norm_num, by norm_num⟩, hpermitted, rfl⟩
  have hplace (x y z : ℝ) : view.transformPoint (.of3 x y z) = .of3 x y (z - 1) :=
    (Mat.transformPoint_displacement _ _).trans (Vec.ext_of3 (add_zero x) (add_zero y) rfl)
  obtain ⟨s, hs, -⟩ := (worldToViewport_eq hview hprojection (.of3 1 1 (-1))).2 (by
    rw [hplace]
    norm_num [t])
  obtain ⟨hnone, hpicture, -⟩ := worldToViewport_frustum hview hprojection (hslope.symm ▸ one_pos)
  obtain ⟨hdepth, -, -, hx, hy⟩ := hpicture _ s hs (by
    rw [hplace]
    norm_num)
  rw [hplace, hslope] at hx hy
  rw [hplace] at hdepth
  refine ⟨c, _, s, rfl, hprojection, hs, hx.mpr ?_, hy.mpr ?_, hdepth.mpr ?_, (hnone _).mpr ?_⟩
  · norm_num [c, aspectRatio]
  · norm_num
  · norm_num [c]
  · rw [hplace]
    norm_num [t]

end Camera

end SceneEngine
