/-
When there is a perspective.

A perspective is refused for the first of its parameters that lies outside its range, and
otherwise it is `frustum` (`perspective_eq_ok_iff`). To be outside is what is asked, so
what compares with nothing is let through.
-/
import SceneEngine.Mat.Projection

namespace SceneEngine.Mat

variable {α ω : Type} [Scalar α] [Scalar ω] [Widening α ω]

/-- The matrix of a perspective. -/
def frustum (fovY aspect near far : α) : Mat α 4 4 :=
  let focal := 1 / Scalar.tan (fovY / Scalar.two)
  let depth := near - far
  ofRows4
    (.of4 (focal / aspect) 0 0 0)
    (.of4 0 focal 0 0)
    (.of4 0 0 ((far + near) / depth) (Scalar.two * far * near / depth))
    (.of4 0 0 (-1) 0)

/-- No parameter is found outside its range. -/
structure Permitted (t : Tolerance ω) (fovY aspect near far : α) : Prop where
  opening : t.isZero fovY = false ∧ ¬ (widen fovY : ω) ≤ 0 ∧ ¬ Scalar.pi ≤ (widen fovY : ω)
  shape : t.isZero aspect = false ∧ ¬ aspect ≤ 0
  nearPlane : ¬ near ≤ 0
  farPlane : ¬ far ≤ near ∧ t.approxEq far near = false

variable {t : Tolerance ω} {fovY aspect near far : α} {m : Mat α 4 4}

theorem perspective_eq_ok_iff : perspective t fovY aspect near far = .ok m ↔
    Permitted t fovY aspect near far ∧ m = frustum fovY aspect near far := by
  constructor
  · intro h
    unfold perspective at h
    dsimp only at h
    split at h
    · cases h
    next hfov =>
    split at h
    · cases h
    next haspect =>
    split at h
    · cases h
    next hnear =>
    split at h
    · cases h
    next hfar =>
    simp only [Bool.or_eq_true, decide_eq_true_eq, not_or, Bool.not_eq_true] at hfov haspect hfar
    exact ⟨⟨⟨hfov.1.1, hfov.1.2, hfov.2⟩, haspect, hnear, hfar⟩, (Except.ok.inj h).symm⟩
  · rintro ⟨⟨⟨hzero, hfov, hpi⟩, ⟨hflat, haspect⟩, hnear, hfar, hsame⟩, rfl⟩
    simp only [perspective, hzero, hfov, hpi, hflat, haspect, hnear, hfar, hsame, decide_false,
      Bool.or_false, Bool.false_eq_true, if_false]
    rfl

end SceneEngine.Mat
