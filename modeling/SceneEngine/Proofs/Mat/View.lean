/-
The view of an eye is rigid.

Its rows are a basis to the right hand: back is made a unit vector, so is right, which as a
cross product stands at right angles to back, and then the cross product of the two is a
unit vector too. On points the view takes off the eye and reads the coordinates along that
basis (`transformPoint_viewFrom`).

A view is refused when the eye is at its target, or when the up direction lies along the
line of sight and leaves open which way is right. Without a tolerance there is no other
reason (`lookAt_eq` says exactly when there is one).
-/
import Mathlib.Tactic.NormNum
import SceneEngine.Mat.Projection
import SceneEngine.Proofs.Exact.Reals
import SceneEngine.Proofs.Mat.Affine

namespace SceneEngine.Mat

open scoped Exact

variable {K : Type} [Field K] [LinearOrder K] [FieldFunctions K]

/-! ## What a view does -/

/-- The view from `eye` with the given directions. -/
def viewFrom (right up back eye : Vec K 3) : Mat K 4 4 :=
  ofRows4
    (.of4 right.x right.y right.z (-right.dot eye))
    (.of4 up.x up.y up.z (-up.dot eye))
    (.of4 back.x back.y back.z (-back.dot eye))
    (.of4 0 0 0 1)

variable {right up back eye : Vec K 3}

theorem affine_viewFrom : (viewFrom right up back eye).Affine := rfl

theorem transformPoint_viewFrom (p : Vec K 3) : (viewFrom right up back eye).transformPoint p =
    .of3 (right.dot (p - eye)) (up.dot (p - eye)) (back.dot (p - eye)) := by
  have hrow (v : Vec K 3) : (Vec.of3 v.x v.y v.z).dot p + -v.dot eye = v.dot (p - eye) := by
    rw [Vec.dot_sub, sub_eq_add_neg, Vec.dot_three, Vec.dot_three v p]
    rfl
  rw [viewFrom, transformPoint_ofRows4]
  simp only [Vec.truncate_of4, Vec.w_of4, hrow]

theorem transformDirection_viewFrom (d : Vec K 3) : (viewFrom right up back eye).transformDirection d =
    .of3 (right.dot d) (up.dot d) (back.dot d) := by
  rw [viewFrom, transformDirection_ofRows4]
  simp only [Vec.truncate_of4, Vec.dot_three, Vec.x_of3, Vec.y_of3, Vec.z_of3]

theorem transformPoint_viewFrom_eye : (viewFrom right up back eye).transformPoint eye = .zero := by
  have hnone (v : Vec K 3) : v.dot (eye - eye) = 0 := by
    rw [Vec.dot_sub, sub_self]
  rw [transformPoint_viewFrom, hnone, hnone, hnone]
  exact Vec.toFun_injective (by simp)

/-- What the eye looks at is straight ahead. -/
theorem transformPoint_viewFrom_target {target : Vec K 3} {distance : K}
    (h : Vec.RightHanded right up back) (hsight : eye - target = back * distance) :
    (viewFrom right up back eye).transformPoint target = .of3 0 0 (-distance) := by
  obtain ⟨⟨_, _, hback⟩, ⟨_, hup, hright⟩, _⟩ := h
  have hahead (v : Vec K 3) : v.dot (target - eye) = -(distance * v.dot back) := by
    rw [← Vec.dot_mul, ← hsight, Vec.dot_sub, Vec.dot_sub, neg_sub]
  rw [transformPoint_viewFrom, hahead, hahead, hahead, hback, hup, Vec.dot_comm, hright, mul_zero,
    neg_zero, mul_one]

variable [IsStrictOrderedRing K] [ExactRoots K] {t : Tolerance K}

/-- Back along an offset and right along a vector at right angles to it make a basis. -/
theorem rightHanded_sight (offset : Vec K 3) {side : Vec K 3} (hoffset : offset.length ≠ 0)
    (hside : side.length ≠ 0) (h : (offset / offset.length).dot side = 0) :
    Vec.RightHanded (side / side.length) ((offset / offset.length).cross (side / side.length))
      (offset / offset.length) := by
  have hback := Vec.dot_self_div_length hoffset
  have hright := Vec.dot_self_div_length hside
  have hbetween : (offset / offset.length).dot (side / side.length) = 0 := by
    rw [Vec.dot_div, h, mul_zero]
  exact (Vec.rightHanded_cross hback hright hbetween).rotate

/-- With right at right angles to it, the direction that was called up is seen upward. -/
theorem transformDirection_viewFrom_up (h : (up.cross back).length ≠ 0) :
    (viewFrom (up.cross back / (up.cross back).length)
        (back.cross (up.cross back / (up.cross back).length)) back eye).transformDirection up =
      .of3 0 (up.cross back).length (back.dot up) := by
  have hright : (up.cross back / (up.cross back).length).dot up = 0 := by
    rw [Vec.dot_comm, Vec.dot_div, Vec.dot_cross_left, mul_zero]
  have hup : (back.cross (up.cross back / (up.cross back).length)).dot up = (up.cross back).length := by
    rw [Vec.dot_comm, Vec.dot_cross_rotate, Vec.dot_cross_rotate, Vec.dot_comm, Vec.dot_div_length h]
  rw [transformDirection_viewFrom, hright, hup]

/-! ## When there is a view -/

/-- A view is refused when the eye is too near its target, or right is too short before it is
made a unit vector. -/
theorem lookAt_eq (t : Tolerance K) (eye target up : Vec K 3) :
    lookAt t eye target up =
      let back := (eye - target) / eye.distance target
      let side := up.cross back
      if eye.distance target ≤ t.absolute then .error (.zeroLengthVector (eye.distance target))
      else if side.length ≤ t.absolute then .error .degenerateBasis
      else .ok (viewFrom (side / side.length) (back.cross (side / side.length)) back eye) := by
  have hback : (eye - target).normalize t = if eye.distance target ≤ t.absolute then
      .error (.zeroLengthVector (eye.distance target)) else .ok ((eye - target) / eye.distance target) :=
    Vec.normalize_eq t _
  by_cases hnear : eye.distance target ≤ t.absolute
  · rw [if_pos hnear] at hback
    simp only [lookAt, hback, if_pos hnear]
    rfl
  · rw [if_neg hnear] at hback
    have hright := Vec.normalize_eq t (up.cross ((eye - target) / eye.distance target))
    simp only [if_neg hnear]
    split
    · next hflat =>
      rw [if_pos hflat] at hright
      simp only [lookAt, hback, bind, Except.bind, hright]
      rfl
    · next hflat =>
      rw [if_neg hflat] at hright
      simp only [lookAt, hback, bind, Except.bind, hright]
      rfl

/-- An eye that looks along the axis of a basis at a distance of one sees by that basis. -/
theorem lookAt_of_rightHanded {target : Vec K 3} (hsmall : t.absolute < 1)
    (h : Vec.RightHanded right up back) (hsight : eye - target = back) :
    lookAt t eye target up = .ok (viewFrom right up back eye) := by
  have hone {v : Vec K 3} (hv : v.dot v = 1) : v.length = 1 :=
    Vec.length_eq zero_le_one (hv.trans (one_mul 1).symm)
  have hdistance : eye.distance target = 1 := by
    rw [Vec.distance, hsight, hone h.units.2.2]
  rw [lookAt_eq, hdistance, hsight]
  simp only [Vec.div_one, h.rotate.handed, h.rotate.rotate.handed, hone h.units.1, if_neg hsmall.not_ge]

theorem lookAt_eq_ok_iff {target : Vec K 3} {v : Mat K 4 4} : lookAt t eye target up = .ok v ↔
    let back := (eye - target) / eye.distance target
    let side := up.cross back
    t.absolute < eye.distance target ∧ t.absolute < side.length ∧
      v = viewFrom (side / side.length) (back.cross (side / side.length)) back eye := by
  rw [lookAt_eq]
  dsimp only
  split
  · next hnear => simp [hnear]
  · next hnear =>
    split
    · next hflat => simp [hflat]
    · next hflat => simp [not_le.mp hnear, not_le.mp hflat, eq_comm]

theorem distance_eq_zero_iff {p q : Vec K 3} : p.distance q = 0 ↔ p = q := by
  have hdiff : p.distance q = 0 ↔ (p - q).toFun = 0 := Vec.length_eq_zero_iff
  rw [hdiff, Vec.toFun_sub, sub_eq_zero]
  exact ⟨Vec.toFun_injective, congrArg _⟩

/-- There is a sideways direction when up is not along the line of sight. -/
theorem cross_sight_eq_zero_iff {target : Vec K 3} (h : eye ≠ target) :
    (up.cross ((eye - target) / eye.distance target)).length = 0 ↔ ∃ k : K, up = (eye - target) * k := by
  have hdistance : eye.distance target ≠ 0 := fun hzero => h (distance_eq_zero_iff.mp hzero)
  have hoffset : (eye - target).toFun ≠ 0 := fun hzero => hdistance (Vec.length_eq_zero_iff.mpr hzero)
  rw [Vec.length_eq_zero_iff, ← Vec.cross_eq_zero_iff hoffset, Vec.toFun_cross, Vec.toFun_cross,
    Vec.toFun_div, map_smul, smul_eq_zero, inv_eq_zero, or_iff_right hdistance]

/-- **A view is rigid.** Over an ordered field with exact roots and under any tolerance, the rows
of a view that is returned are a basis to the right hand beside `(0, 0, 0, 1)`; it takes the
eye to the origin, the target straight ahead at its distance, and the up direction upward,
neither to the left nor to the right. An eye at its target has no view, nor has one whose up
direction lies along the line of sight; without a tolerance every other eye has one. -/
theorem lookAt_rigid (habs : 0 ≤ t.absolute) (eye target up : Vec K 3) :
    (∀ v, lookAt t eye target up = .ok v →
      Vec.RightHanded v[(0 : Fin 4)].truncate v[(1 : Fin 4)].truncate v[(2 : Fin 4)].truncate ∧
      v[(3 : Fin 4)] = .of4 0 0 0 1 ∧
      v.transformPoint eye = .zero ∧
      v.transformPoint target = .of3 0 0 (-eye.distance target) ∧
      (v.transformDirection up).x = 0 ∧ 0 < (v.transformDirection up).y) ∧
    (eye = target → lookAt t eye target up = .error (.zeroLengthVector 0)) ∧
    ((∃ k : K, up = (eye - target) * k) → lookAt t eye target up = .error
      (if eye.distance target ≤ t.absolute then .zeroLengthVector (eye.distance target)
        else .degenerateBasis)) ∧
    (t.absolute = 0 → ((∃ v, lookAt t eye target up = .ok v) ↔
      eye ≠ target ∧ ¬ ∃ k : K, up = (eye - target) * k)) := by
  refine ⟨fun v hv => ?_, fun hsame => ?_, fun hline => ?_, fun hexact => ?_⟩
  · obtain ⟨hfar, hwide, rfl⟩ := lookAt_eq_ok_iff.mp hv
    have hdistance : eye.distance target ≠ 0 := (habs.trans_lt hfar).ne'
    have hside := habs.trans_lt hwide
    have hbasis := rightHanded_sight (eye - target) hdistance hside.ne'
      (Vec.dot_cross_right _ _)
    have hahead : eye - target = (eye - target) / eye.distance target * eye.distance target :=
      (Vec.div_mul_self hdistance).symm
    refine ⟨hbasis, rfl, transformPoint_viewFrom_eye, transformPoint_viewFrom_target hbasis hahead, ?_⟩
    rw [transformDirection_viewFrom_up hside.ne']
    exact ⟨rfl, hside⟩
  · have hzero : eye.distance target = 0 := distance_eq_zero_iff.mpr hsame
    rw [lookAt_eq]
    simp only [hzero, if_pos habs]
  · rw [lookAt_eq]
    dsimp only
    split
    · rfl
    · next hfar =>
      have hne : eye ≠ target := fun hsame => hfar ((distance_eq_zero_iff.mpr hsame).trans_le habs)
      rw [(cross_sight_eq_zero_iff hne).mpr hline, if_pos habs]
  · have hpos (v : Vec K 3) : 0 < v.length ↔ v.length ≠ 0 := v.length_nonneg.lt_iff_ne'
    have hok : (∃ v, lookAt t eye target up = .ok v) ↔ 0 < eye.distance target ∧
        0 < (up.cross ((eye - target) / eye.distance target)).length := by
      simp only [lookAt_eq_ok_iff, hexact, exists_and_left, exists_eq, and_true]
    have hapart : 0 < eye.distance target ↔ eye ≠ target :=
      (hpos _).trans (not_congr distance_eq_zero_iff)
    rw [hok, hapart]
    exact and_congr_right fun hne => (hpos _).trans (not_congr (cross_sight_eq_zero_iff hne))

/-- An eye seven units from its target, and an up direction that leans back. -/
theorem lookAt_rigid_leaning :
    ∃ v : Mat ℝ 4 4,
      lookAt ⟨1 / 100000, 1 / 100000⟩ (.of3 3 3 6) (.of3 1 0 0) (.of3 8 5 3) = .ok v ∧
      Vec.RightHanded v[(0 : Fin 4)].truncate v[(1 : Fin 4)].truncate v[(2 : Fin 4)].truncate ∧
      v.transformPoint (.of3 1 0 0) = .of3 0 0 (-7) ∧
      (v.transformDirection (.of3 8 5 3)).x = 0 ∧ 0 < (v.transformDirection (.of3 8 5 3)).y ∧
      lookAt ⟨1 / 100000, 1 / 100000⟩ (.of3 3 3 6 : Vec ℝ 3) (.of3 1 0 0) (.of3 4 6 12) =
        .error .degenerateBasis := by
  have hoffset : (.of3 3 3 6 : Vec ℝ 3) - .of3 1 0 0 = .of3 2 3 6 := by
    rw [Vec.of3_sub]
    norm_num
  have hdistance : (.of3 3 3 6 : Vec ℝ 3).distance (.of3 1 0 0) = 7 := by
    refine Vec.length_eq (by norm_num) ?_
    rw [hoffset, Vec.dot_three]
    norm_num
  have hside : Vec.cross (.of3 8 5 3) ((.of3 2 3 6 : Vec ℝ 3) / (7 : ℝ)) = .of3 3 (-6) 2 := by
    rw [Vec.of3_div, Vec.cross]
    norm_num
  have hlength : (.of3 3 (-6) 2 : Vec ℝ 3).length = 7 := by
    refine Vec.length_eq (by norm_num) ?_
    rw [Vec.dot_three]
    norm_num
  have hok : ∃ v, lookAt ⟨1 / 100000, 1 / 100000⟩ (.of3 3 3 6 : Vec ℝ 3) (.of3 1 0 0) (.of3 8 5 3) =
      .ok v := by
    refine ⟨_, lookAt_eq_ok_iff.mpr ⟨?_, ?_, rfl⟩⟩
    · rw [hdistance]
      norm_num
    · rw [hoffset, hdistance, hside, hlength]
      norm_num
  obtain ⟨v, hv⟩ := hok
  have hrigid := lookAt_rigid (t := ⟨1 / 100000, 1 / 100000⟩) (by norm_num) (.of3 3 3 6 : Vec ℝ 3)
    (.of3 1 0 0)
  obtain ⟨hbasis, _, _, htarget, hx, hy⟩ := (hrigid (.of3 8 5 3)).1 v hv
  have halong : Vec.of3 4 6 12 = (.of3 3 3 6 - .of3 1 0 0 : Vec ℝ 3) * (2 : ℝ) := by
    rw [hoffset, Vec.of3_mul]
    norm_num
  have hrefused := (hrigid (.of3 4 6 12)).2.2.1 ⟨2, halong⟩
  rw [hdistance] at htarget hrefused
  rw [if_neg (by norm_num)] at hrefused
  exact ⟨v, hv, hbasis, htarget, hx, hy, hrefused⟩

end SceneEngine.Mat
