/-
What a model matrix does to points, and when its normals are lost.

A model multiplies the coordinates by its scale, turns the plane of each axis and then moves what
it has (`transformPoint_model`). This takes sums and products only, so it holds over any
commutative ring, whatever the sine and the cosine of an angle are.

Over a field, a matrix has no inverse when it takes some direction to nothing. A turn keeps the dot
product of a direction with any other, so it takes none to nothing when it takes sine and cosine from the
unit circle. What a model loses is then lost by its scale, and only a zero there loses anything.
-/
import SceneEngine.Proofs.Mat.Rank
import SceneEngine.Proofs.Mat.Rotation
import SceneEngine.Proofs.Mat.Shape

namespace SceneEngine.Mat

section Turns

variable {α : Type} [Scalar α]

/-- The plane of Y and Z turned by an angle, from Y toward Z. -/
def turnX (angle : α) (v : Vec α 3) : Vec α 3 :=
  .of3 v.x (Scalar.cos angle * v.y - Scalar.sin angle * v.z)
    (Scalar.sin angle * v.y + Scalar.cos angle * v.z)

/-- The plane of Z and X turned by an angle, from Z toward X. -/
def turnY (angle : α) (v : Vec α 3) : Vec α 3 :=
  .of3 (Scalar.sin angle * v.z + Scalar.cos angle * v.x) v.y
    (Scalar.cos angle * v.z - Scalar.sin angle * v.x)

/-- The plane of X and Y turned by an angle, from X toward Y. -/
def turnZ (angle : α) (v : Vec α 3) : Vec α 3 :=
  .of3 (Scalar.cos angle * v.x - Scalar.sin angle * v.y)
    (Scalar.sin angle * v.x + Scalar.cos angle * v.y) v.z

/-- Each coordinate times its factor. -/
def stretch (factors v : Vec α 3) : Vec α 3 :=
  .of3 (factors.x * v.x) (factors.y * v.y) (factors.z * v.z)

end Turns

section Ring

variable {R : Type} [RingScalar R]

theorem rotationEuler_turns (angles d : Vec R 3) : (rotationEuler angles).transformDirection d =
    turnX angles.x (turnY angles.y (turnZ angles.z d)) := by
  rw [transformDirection_rotationEuler, transformDirection_rotationX, transformDirection_rotationY,
    transformDirection_rotationZ]
  rfl

end Ring

open scoped Exact Matrix

section Field

variable {K : Type} [Field K] [LinearOrder K] [FieldFunctions K]

/-! ## Directions that are lost -/

/-- A matrix is singular when it takes some direction to nothing. -/
theorem det_upperLeft_eq_zero_iff {m : Mat K 4 4} : m.upperLeft.toMatrix.det = 0 ↔
    ∃ d : Vec K 3, d.toFun ≠ 0 ∧ (m.transformDirection d).toFun = 0 := by
  rw [← Matrix.exists_mulVec_eq_zero_iff]
  constructor
  · rintro ⟨v, hv, hlost⟩
    refine ⟨.ofFn v, by rwa [Vec.toFun_ofFn], ?_⟩
    rwa [transformDirection_eq, toFun_mulVec, Vec.toFun_ofFn]
  · rintro ⟨d, hd, hlost⟩
    rw [transformDirection_eq, toFun_mulVec] at hlost
    exact ⟨d.toFun, hd, hlost⟩

/-- Nothing is at right angles to all directions. -/
theorem eq_zero_of_kept {m : Mat K 4 4}
    (hm : ∀ a b, (m.transformDirection a).dot (m.transformDirection b) = a.dot b) {d : Vec K 3}
    (hlost : (m.transformDirection d).toFun = 0) : d.toFun = 0 := by
  refine dotProduct_eq_zero d.toFun fun w => ?_
  rw [← Vec.toFun_ofFn w, ← Vec.dot_eq, ← hm, Vec.dot_eq, hlost, zero_dotProduct]

theorem stretch_loses_iff (scale : Vec K 3) :
    (∃ d : Vec K 3, d.toFun ≠ 0 ∧ (stretch scale d).toFun = 0) ↔ ∃ k : Fin 3, scale[k] = 0 := by
  have hcoordinate : ∀ (d : Vec K 3) (k : Fin 3), (stretch scale d).toFun k = scale[k] * d[k] :=
    fun d k => by fin_cases k <;> rfl
  constructor
  · rintro ⟨d, hd, hlost⟩
    obtain ⟨k, hk⟩ := Function.ne_iff.mp hd
    have hzero := congrFun hlost k
    rw [hcoordinate] at hzero
    exact ⟨k, (mul_eq_zero.mp hzero).resolve_right hk⟩
  · rintro ⟨k, hk⟩
    refine ⟨.ofFn (Pi.single k 1), ?_, funext fun j => ?_⟩
    · rw [Vec.toFun_ofFn]
      exact Pi.single_ne_zero_iff.mpr one_ne_zero
    · rw [hcoordinate, Vec.getElem_ofFn]
      by_cases hj : j = k
      · rw [hj, hk, zero_mul]
        rfl
      · rw [Pi.single_eq_of_ne hj, mul_zero]
        rfl

theorem det_model_eq_zero_iff {position angles scale : Vec K 3}
    (h : ∀ k : Fin 3, Scalar.sin angles[k] ^ 2 + Scalar.cos angles[k] ^ 2 = 1) :
    (model position angles scale).upperLeft.toMatrix.det = 0 ↔ ∃ k : Fin 3, scale[k] = 0 := by
  have hkept : ∀ a b : Vec K 3, ((rotationEuler angles).transformDirection a).dot
      ((rotationEuler angles).transformDirection b) = a.dot b := dot_rotationEuler h
  have hmodel : ∀ d : Vec K 3, (model position angles scale).transformDirection d =
      (rotationEuler angles).transformDirection (stretch scale d) :=
    transformDirection_model position angles scale
  rw [det_upperLeft_eq_zero_iff, ← stretch_loses_iff]
  refine exists_congr fun d => and_congr_right fun _ => ?_
  rw [hmodel]
  refine ⟨eq_zero_of_kept hkept, fun hlost => ?_⟩
  rw [transformDirection_eq, toFun_mulVec, hlost, Matrix.mulVec_zero]

variable [IsStrictOrderedRing K]

/-- Without a tolerance there is an inverse unless the determinant is zero. -/
theorem isSome_inverse_iff {n : Nat} (m : Mat K n n) :
    (m.eliminate (⟨0, 0⟩ : Tolerance K)).inverse.isSome = true ↔ m.toMatrix.det ≠ 0 := by
  have h := Elimination.Reduces.run (t := ⟨0, 0⟩) (le_refl 0) (le_refl 0) m
  have hrank := Elimination.rank_run m
  rcases Nat.lt_or_ge (Elimination.run (⟨0, 0⟩ : Tolerance K) m).rank n with hr | hr
  · have hsingular : ¬ m.toMatrix.det ≠ 0 := fun hne => by
      have hfull := Matrix.rank_of_det_ne_zero hne
      rw [← hrank, Fintype.card_fin] at hfull
      omega
    simp [eliminate_of_lt hr, hsingular]
  · have hdet := h.det_eq (Nat.le_antisymm h.rank_le hr)
    have hne : m.toMatrix.det ≠ 0 := by
      rw [← hdet]
      exact right_ne_zero_of_mul_eq_one h.det
    simp [eliminate_of_le hr, hne]

end Field

/-- **A model scales, turns and moves.** Over any commutative ring, and whatever sine and cosine
are there, a model matrix takes a point to its coordinates times the scale, turned about Z, Y and X in
this order, plus the position; a direction it takes the same way without the position; and
its last row is that of a map of points to points. Where sine and cosine of the three angles lie on the
unit circle, the turns keep all dot products. So over an ordered field and without a tolerance, a model
has no normal matrix exactly when its scale has a zero. -/
theorem model_scales_turns_moves :
    (∀ (R : Type) [RingScalar R] (position angles scale : Vec R 3),
      (∀ p, (model position angles scale).transformPoint p =
        position + turnX angles.x (turnY angles.y (turnZ angles.z (stretch scale p)))) ∧
      (∀ d, (model position angles scale).transformDirection d =
        turnX angles.x (turnY angles.y (turnZ angles.z (stretch scale d)))) ∧
      (model position angles scale)[Fin.last 3] = .of4 0 0 0 1 ∧
      ((∀ k : Fin 3, Scalar.sin angles[k] ^ 2 + Scalar.cos angles[k] ^ 2 = 1) → ∀ a b,
        ((rotationEuler angles).transformDirection a).dot
          ((rotationEuler angles).transformDirection b) = a.dot b)) ∧
    ∀ (K : Type) [Field K] [LinearOrder K] [IsStrictOrderedRing K] [FieldFunctions K]
      (position angles scale : Vec K 3),
      (∀ k : Fin 3, Scalar.sin angles[k] ^ 2 + Scalar.cos angles[k] ^ 2 = 1) →
      ((∃ error, (model position angles scale).normalMatrix (⟨0, 0⟩ : Tolerance K) = .error error) ↔
        ∃ k : Fin 3, scale[k] = 0) := by
  refine ⟨fun R _ position angles scale => ⟨fun p => ?_, fun d => ?_, ?_, dot_rotationEuler⟩,
    fun K _ _ _ _ position angles scale h => ?_⟩
  · rw [transformPoint_model, rotationEuler_turns]
    apply Vec.toFun_injective
    rw [Vec.toFun_add, Vec.toFun_add, add_comm]
    rfl
  · rw [transformDirection_model, rotationEuler_turns]
    rfl
  · exact lastRow_model position angles scale
  · have hfails : (∃ error, (model position angles scale).normalMatrix (⟨0, 0⟩ : Tolerance K) =
        .error error) ↔
        ¬ ∃ normal, (model position angles scale).normalMatrix (⟨0, 0⟩ : Tolerance K) = .ok normal := by
      cases (model position angles scale).normalMatrix (⟨0, 0⟩ : Tolerance K) <;> simp
    rw [hfails, exists_normalMatrix_iff, isSome_inverse_iff, not_not, det_model_eq_zero_iff h]

/-- Turns that are no right angles, with a scale that mirrors and a flat one. -/
theorem model_scales_turns_moves_flat :
    ∃ (_ : FieldFunctions ℚ) (position angles mirrored flat : Vec ℚ 3),
      position = .of3 1 2 3 ∧ mirrored = .of3 2 (-3) (1 / 2) ∧ flat = .of3 2 0 (1 / 2) ∧
      (∀ k : Fin 3, Scalar.sin angles[k] ^ 2 + Scalar.cos angles[k] ^ 2 = 1) ∧
      (model position angles mirrored).transformPoint (.of3 1 1 1) =
        position + turnX angles.x (turnY angles.y (turnZ angles.z mirrored)) ∧
      (∃ normal, (model position angles mirrored).normalMatrix (⟨0, 0⟩ : Tolerance ℚ) = .ok normal) ∧
      ∃ error, (model position angles flat).normalMatrix (⟨0, 0⟩ : Tolerance ℚ) = .error error := by
  let functions : FieldFunctions ℚ :=
    { FieldFunctions.arithmetic with sin := fun _ => 3 / 5, cos := fun _ => 4 / 5 }
  let position : Vec ℚ 3 := .of3 1 2 3
  let angles : Vec ℚ 3 := .of3 1 2 3
  let mirrored : Vec ℚ 3 := .of3 2 (-3) (1 / 2)
  let flat : Vec ℚ 3 := .of3 2 0 (1 / 2)
  have hcircle : ∀ k : Fin 3, Scalar.sin angles[k] ^ 2 + Scalar.cos angles[k] ^ 2 = 1 := by
    decide +kernel
  obtain ⟨hacts, hfails⟩ := model_scales_turns_moves
  have hpoint := (hacts ℚ position angles mirrored).1 (.of3 1 1 1)
  have hstretch : stretch mirrored (.of3 1 1 1) = mirrored := by decide +kernel
  rw [hstretch] at hpoint
  have hmirrored : ¬ ∃ error, (model position angles mirrored).normalMatrix (⟨0, 0⟩ : Tolerance ℚ) =
      .error error := by
    rw [hfails ℚ position angles mirrored hcircle]
    decide +kernel
  refine ⟨functions, position, angles, mirrored, flat, rfl, rfl, rfl, hcircle, hpoint, ?_,
    (hfails ℚ position angles flat hcircle).mpr ⟨1, rfl⟩⟩
  cases hnormal : (model position angles mirrored).normalMatrix (⟨0, 0⟩ : Tolerance ℚ) with
  | error error => exact absurd ⟨error, hnormal⟩ hmirrored
  | ok normal => exact ⟨normal, rfl⟩

end SceneEngine.Mat
