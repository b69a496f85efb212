/-
Which projections are let through.

Of two numbers one is at or above the other, so a parameter that is a number and is not found
outside its range lies in it (`permitted_iff`). A NaN compares with nothing and is outside of no
range. It is let through, and shows in the diagonal of the matrix that is built from it.

The sizes of a viewport are asked to be positive, which a NaN is not. But two infinite sizes
have no ratio.
-/
import SceneEngine.Proofs.Binary.Special
import SceneEngine.Proofs.Mat.Perspective
import SceneEngine.Camera

namespace SceneEngine

theorem Camera.projection_eq_ok_iff {α ω : Type} [Scalar α] [Scalar ω] [Widening α ω]
    {t : Tolerance ω} {c : Camera α} {m : Mat α 4 4} : c.projection t = .ok m ↔
      (0 < c.viewportWidth ∧ 0 < c.viewportHeight) ∧
      Mat.Permitted t (c.fovDegrees * Scalar.degree) c.aspectRatio c.near c.far ∧
      m = Mat.frustum (c.fovDegrees * Scalar.degree) c.aspectRatio c.near c.far := by
  rw [← Mat.perspective_eq_ok_iff]
  unfold Camera.projection
  split
  · next h => exact (and_iff_right h).symm
  · next h => exact ⟨nofun, fun hok => absurd hok.1 h⟩

variable {f : Format} [Scalar (Binary f)] [Widening (Binary f) F64] [Binary.Standard f]

/-! ## Comparisons with a NaN -/

section Comparison

variable {x y : Binary f} {t : Tolerance F64}

theorem Binary.not_le_iff : ¬ x ≤ y ↔ (x.isNaN = false → y.isNaN = false → y < x) := by
  rw [Standard.le_iff, Standard.lt_iff]
  constructor
  · exact fun h hx hy => lt_of_not_le hy hx h
  · intro h hle
    obtain ⟨hx, hy, -⟩ := le_iff.mp hle
    exact not_lt_of_le hle (h hx hy)

/-- A NaN is not told from zero by its size, so only a number is. -/
theorem Tolerance.isZero_eq_false (h : x.isNaN = false → t.isZero x = false) :
    t.isZero x = false := by
  cases hx : x.isNaN with
  | false => exact h hx
  | true =>
    refine decide_eq_false (Binary.not_le_iff.mpr fun hwide => ?_)
    have hnan : (Scalar.abs (widen x : F64)).isNaN = true := (Binary.Standard.isNaN_widen x).trans hx
    rw [hnan] at hwide
    cases hwide

theorem Tolerance.approxEq_eq_false (h : x.isNaN = false → y.isNaN = false → t.approxEq x y = false) :
    t.approxEq x y = false := by
  by_cases hnan : x.isNaN = true ∨ y.isNaN = true
  · have hx := Binary.Standard.isNaN_widen x
    have hy := Binary.Standard.isNaN_widen y
    have hsame : Scalar.same (widen x : F64) (widen y) = false := by
      rw [Binary.Standard.same_eq, Binary.eq, hx, hy]
      rcases hnan with hnan | hnan <;> simp [hnan]
    have hdistance : ((widen x : F64).sub (widen y)).isNaN = true :=
      hnan.elim (fun hnan => Binary.isNaN_sub_left (hx.trans hnan))
        fun hnan => Binary.isNaN_sub_right (hy.trans hnan)
    have hfinite : Scalar.isFinite (Scalar.abs ((widen x : F64) - widen y)) = false :=
      Binary.isFinite_of_isNaN (x := ((widen x : F64).sub (widen y)).abs) hdistance
    simp only [approxEq, hsame, hfinite, Bool.false_and, Bool.false_eq_true, if_false]
  · simp only [not_or, Bool.not_eq_true] at hnan
    exact h hnan.1 hnan.2

end Comparison

/-! ## Parameters in their ranges -/

namespace Mat

/-- What a frustum is made of. -/
structure IsFrustum (fovY aspect near far : Binary f) : Prop where
  opening : 0 < (widen fovY : F64) ∧ (widen fovY : F64) < Scalar.pi
  shape : 0 < aspect
  nearPlane : 0 < near
  farPlane : near < far

/-- Every parameter that is a number lies in its range, and off the ends of it. -/
structure NumbersInRange (t : Tolerance F64) (fovY aspect near far : Binary f) : Prop where
  opening : fovY.isNaN = false →
    t.isZero fovY = false ∧ 0 < (widen fovY : F64) ∧ (widen fovY : F64) < Scalar.pi
  shape : aspect.isNaN = false → t.isZero aspect = false ∧ 0 < aspect
  nearPlane : near.isNaN = false → 0 < near
  farPlane : near.isNaN = false → far.isNaN = false → near < far ∧ t.approxEq far near = false

variable {t : Tolerance F64} {fovY aspect near far : Binary f} {m : Mat (Binary f) 4 4}

theorem permitted_iff : Permitted t fovY aspect near far ↔ NumbersInRange t fovY aspect near far := by
  have hzero : (0 : Binary f).isNaN = false := by
    rw [Binary.Standard.zero_eq]
    rfl
  have hwide := Binary.Standard.isNaN_widen fovY
  constructor
  · rintro ⟨⟨hoff, hpos, hpi⟩, ⟨hflat, hshape⟩, hnear, hfar, hsame⟩
    exact {
      opening := fun hfov => ⟨hoff, Binary.not_le_iff.mp hpos (hwide.trans hfov) rfl,
        Binary.not_le_iff.mp hpi rfl (hwide.trans hfov)⟩
      shape := fun haspect => ⟨hflat, Binary.not_le_iff.mp hshape haspect hzero⟩
      nearPlane := fun hn => Binary.not_le_iff.mp hnear hn hzero
      farPlane := fun hn hf => ⟨Binary.not_le_iff.mp hfar hf hn, hsame⟩ }
  · rintro ⟨hopening, hshape, hnear, hfar⟩
    exact {
      opening := ⟨Tolerance.isZero_eq_false fun hfov => (hopening hfov).1,
        Binary.not_le_iff.mpr fun hfov _ => (hopening (hwide.symm.trans hfov)).2.1,
        Binary.not_le_iff.mpr fun _ hfov => (hopening (hwide.symm.trans hfov)).2.2⟩
      shape := ⟨Tolerance.isZero_eq_false fun haspect => (hshape haspect).1,
        Binary.not_le_iff.mpr fun haspect _ => (hshape haspect).2⟩
      nearPlane := Binary.not_le_iff.mpr fun hn _ => hnear hn
      farPlane := ⟨Binary.not_le_iff.mpr fun hf hn => (hfar hn hf).1,
        Tolerance.approxEq_eq_false fun hf hn => (hfar hn hf).2⟩ }

/-! ## NaNs in the matrix -/

theorem isNaN_frustum_width (h : fovY.isNaN = true ∨ aspect.isNaN = true) :
    (frustum fovY aspect near far)[(0 : Fin 4)][(0 : Fin 4)].isNaN = true := by
  show ((1 / Scalar.tan (fovY / Scalar.two)) / aspect).isNaN = true
  simp only [Binary.Standard.div_eq, Binary.Standard.tan_eq]
  rcases h with h | h
  · exact Binary.isNaN_div_left (Binary.isNaN_div_right (Binary.isNaN_tan (Binary.isNaN_div_left h)))
  · exact Binary.isNaN_div_right h

theorem isNaN_frustum_depth (h : near.isNaN = true ∨ far.isNaN = true) :
    (frustum fovY aspect near far)[(2 : Fin 4)][(2 : Fin 4)].isNaN = true := by
  show ((far + near) / (near - far)).isNaN = true
  rw [Binary.Standard.div_eq, Binary.Standard.sub_eq]
  rcases h with h | h
  · exact Binary.isNaN_div_right (Binary.isNaN_sub_left h)
  · exact Binary.isNaN_div_right (Binary.isNaN_sub_right h)

/-- Either every parameter lies in its range, or one is a NaN and shows. -/
theorem NumbersInRange.isFrustum_or (h : NumbersInRange t fovY aspect near far) :
    IsFrustum fovY aspect near far ∨
      ((fovY.isNaN = true ∨ aspect.isNaN = true) ∧
        (frustum fovY aspect near far)[(0 : Fin 4)][(0 : Fin 4)].isNaN = true) ∨
      ((near.isNaN = true ∨ far.isNaN = true) ∧
        (frustum fovY aspect near far)[(2 : Fin 4)][(2 : Fin 4)].isNaN = true) := by
  by_cases hwidth : fovY.isNaN = true ∨ aspect.isNaN = true
  · exact .inr (.inl ⟨hwidth, isNaN_frustum_width hwidth⟩)
  by_cases hdepth : near.isNaN = true ∨ far.isNaN = true
  · exact .inr (.inr ⟨hdepth, isNaN_frustum_depth hdepth⟩)
  simp only [not_or, Bool.not_eq_true] at hwidth hdepth
  exact .inl ⟨(h.opening hwidth.1).2, (h.shape hwidth.2).2, h.nearPlane hdepth.1,
    (h.farPlane hdepth.1 hdepth.2).1⟩

end Mat

namespace Camera

variable {t : Tolerance F64} {c : Camera (Binary f)}

theorem isNaN_fovDegrees (h : (c.fovDegrees * Scalar.degree).isNaN = true) :
    c.fovDegrees.isNaN = true := by
  obtain ⟨hfinite, hzero⟩ := Binary.Standard.degree (f := f)
  rw [Binary.Standard.mul_eq] at h
  by_contra hfov
  have hnumber := Binary.isNaN_mul (Bool.not_eq_true _ ▸ hfov)
    (Binary.isNaN_of_isFinite hfinite) fun hinf => by
    have hwide : c.fovDegrees.isInfinite = true :=
      hinf.resolve_right (by simp [Binary.isInfinite_of_isFinite hfinite])
    exact ⟨Binary.isZero_of_isInfinite (Nat.zero_lt_of_lt (Binary.lt_infinity hfinite)) hwide, hzero⟩
  rw [hnumber] at h
  cases h

theorem isInfinite_viewport (hwidth : 0 < c.viewportWidth) (hheight : 0 < c.viewportHeight)
    (h : c.aspectRatio.isNaN = true) :
    c.viewportWidth.isInfinite = true ∧ c.viewportHeight.isInfinite = true := by
  obtain ⟨hwnan, -, hwzero⟩ := Binary.Standard.of_pos hwidth
  obtain ⟨hhnan, -, hhzero⟩ := Binary.Standard.of_pos hheight
  rw [aspectRatio, Binary.Standard.div_eq] at h
  by_contra hinf
  have hnumber := Binary.isNaN_div hwnan hhnan
    (fun hw => Bool.eq_false_iff.mpr fun hh => hinf ⟨hw, hh⟩) fun _ => hhzero
  rw [hnumber] at h
  cases h

/-- **A projection is checked as far as it is made of numbers.** In both formats and under any
tolerance, a perspective is returned exactly when each of its parameters that is a number lies in
its range; then all of them do, or one is a NaN and the matrix has a NaN for its scale or for
its depth. A camera has a projection exactly when moreover both sizes of its viewport are
positive; then all of its parameters lie in their ranges, or one of its fields is a NaN or both
sizes are infinite, and the matrix shows it. -/
theorem projection_checks_numbers (t : Tolerance F64) :
    (∀ fovY aspect near far : Binary f,
      ((∃ m, Mat.perspective t fovY aspect near far = .ok m) ↔
        Mat.NumbersInRange t fovY aspect near far) ∧
      ∀ m, Mat.perspective t fovY aspect near far = .ok m → Mat.IsFrustum fovY aspect near far ∨
        ((fovY.isNaN = true ∨ aspect.isNaN = true) ∧ m[(0 : Fin 4)][(0 : Fin 4)].isNaN = true) ∨
        ((near.isNaN = true ∨ far.isNaN = true) ∧ m[(2 : Fin 4)][(2 : Fin 4)].isNaN = true)) ∧
    ∀ c : Camera (Binary f),
      ((∃ m, c.projection t = .ok m) ↔ (0 < c.viewportWidth ∧ 0 < c.viewportHeight) ∧
        Mat.NumbersInRange t (c.fovDegrees * Scalar.degree) c.aspectRatio c.near c.far) ∧
      ∀ m, c.projection t = .ok m →
        Mat.IsFrustum (c.fovDegrees * Scalar.degree) c.aspectRatio c.near c.far ∨
        ((c.fovDegrees.isNaN = true ∨
            c.viewportWidth.isInfinite = true ∧ c.viewportHeight.isInfinite = true) ∧
          m[(0 : Fin 4)][(0 : Fin 4)].isNaN = true) ∨
        ((c.near.isNaN = true ∨ c.far.isNaN = true) ∧ m[(2 : Fin 4)][(2 : Fin 4)].isNaN = true) := by
  refine ⟨fun fovY aspect near far => ⟨?_, fun m hm => ?_⟩, fun c => ⟨?_, fun m hm => ?_⟩⟩
  · simp only [Mat.perspective_eq_ok_iff, exists_and_left, exists_eq, and_true, Mat.permitted_iff]
  · obtain ⟨hpermitted, rfl⟩ := Mat.perspective_eq_ok_iff.mp hm
    exact (Mat.permitted_iff.mp hpermitted).isFrustum_or
  · simp only [projection_eq_ok_iff, exists_and_left, exists_eq, and_true, Mat.permitted_iff]
  · obtain ⟨⟨hwidth, hheight⟩, hpermitted, rfl⟩ := projection_eq_ok_iff.mp hm
    obtain h | ⟨hnan, hshown⟩ | h := (Mat.permitted_iff.mp hpermitted).isFrustum_or
    · exact .inl h
    · exact .inr (.inl ⟨hnan.imp isNaN_fovDegrees (isInfinite_viewport hwidth hheight), hshown⟩)
    · exact .inr (.inr h)

/-- A camera that sees endlessly far on an endlessly wide viewport: its parameters are numbers. -/
theorem projection_checks_numbers_endless :
    ∃ (c : Camera F32) (m : Mat F32 4 4),
      c = ⟨(45 : Nat), 1, .signedInfinity false, .signedInfinity false, (600 : Nat)⟩ ∧
      c.projection .single = .ok m ∧
      Mat.IsFrustum (c.fovDegrees * Scalar.degree) c.aspectRatio c.near c.far := by
  let c : Camera F32 := ⟨(45 : Nat), 1, .signedInfinity false, .signedInfinity false, (600 : Nat)⟩
  obtain ⟨hiff, hshown⟩ := (projection_checks_numbers (f := .single) .single).2 c
  obtain ⟨m, hm⟩ := hiff.mpr ⟨by decide +kernel, {
    opening := by decide +kernel
    shape := by decide +kernel
    nearPlane := by decide +kernel
    farPlane := by decide +kernel }⟩
  refine ⟨c, m, rfl, hm, ?_⟩
  obtain h | ⟨hnan, -⟩ | ⟨hnan, -⟩ := hshown m hm
  · exact h
  · exact absurd hnan (by decide +kernel)
  · exact absurd hnan (by decide +kernel)

/-- A field of view that is a NaN is let through. -/
theorem perspective_of_nan : ∃ m : Mat F32 4 4,
    Mat.perspective .single (Binary.signedNaN false) 1 1 ((2 : Nat) : F32) = .ok m ∧
    ¬ (0 : F32) < Binary.signedNaN false := by
  refine ⟨_, Mat.perspective_eq_ok_iff.mpr ⟨?_, rfl⟩, by decide⟩
  constructor <;> decide +kernel

end Camera

end SceneEngine
