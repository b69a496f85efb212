/-
What rounding leaves of a rotation.

A product of matrices with entries of size one at most is off by a few times what its factors are
off (`Near.mul`). A rotation has such entries (`IsRotation.small`), and the computed sine and cosine
are near those of an angle, so a rotation about three axes one after the other is near a rotation of
the real space (`near_rotationEuler`).
-/
import SceneEngine.Proofs.Binary.Circular
import SceneEngine.Proofs.Mat.Rotation
import SceneEngine.Proofs.Vec.Nearness

namespace SceneEngine.Mat

open scoped Exact
open Binary (roundoff roundoff_eq roundoff_pos)

/-- Near in every entry. -/
def Near {r c : Nat} (δ : ℝ) (m : Mat F32 r c) (k : Mat ℝ r c) : Prop :=
  ∀ i : Fin r, Vec.Near δ m[i] k[i]

/-- No entry is larger than one. -/
def Small {r c : Nat} (k : Mat ℝ r c) : Prop := ∀ i : Fin r, Vec.Small k[i]

/-! ## Products -/

section Products

variable {δ ε : ℝ}

theorem Near.mul {r k c : Nat} (hk : k ≤ 4) {a : Mat F32 r k} {b : Mat F32 k c} {a' : Mat ℝ r k}
    {b' : Mat ℝ k c} (ha : Near δ a a') (ha' : a'.Small) (hb : Near ε b b') (hb' : b'.Small)
    (hδ : δ ≤ 1 / 4) (hε : ε ≤ 1 / 4) : Near (k * (5 / 4 * δ + ε + 2 * roundoff)) (a * b) (a' * b') := by
  intro i j
  have hentry : (a * b)[i][j] = Scalar.sum fun l : Fin k => a[i][l] * b[l][j] := getElem_ofFn _ i j
  have hentry' : (a' * b')[i][j] = ∑ l : Fin k, a'[i][l] * b'[l][j] :=
    (getElem_ofFn _ i j).trans (Exact.sum_eq _)
  rw [hentry, hentry']
  exact Vec.near_sum_mul hk (ha i) (ha' i) (fun l => hb l j) (fun l => hb' l j) hδ hε

theorem Near.transformDirection {m : Mat F32 4 4} {k : Mat ℝ 4 4} {d : Vec F32 3} {d' : Vec ℝ 3}
    (hm : Near δ m k) (hk : k.Small) (hd : d.Near 0 d') (hd' : d'.Small) (hδ : δ ≤ 1 / 4) :
    (m.transformDirection d).Near (5 * δ + 8 * roundoff) (k.transformDirection d') := by
  have hlift : (d.lift 0).Near 0 (d'.lift 0) := by
    intro i
    refine Fin.lastCases ?_ (fun i => ?_) i
    · exact Binary.near_zero
    · rw [Vec.getElem_lift_castSucc, Vec.getElem_lift_castSucc]
      exact hd i
  have hlift' : (d'.lift 0).Small := by
    intro i
    refine Fin.lastCases ?_ (fun i => ?_) i
    · rw [Vec.getElem_lift_last, abs_zero]
      exact zero_le_one
    · rw [Vec.getElem_lift_castSucc]
      exact hd' i
  intro i
  have hleft : (m.transformDirection d)[i] = m[i.castSucc].dot (d.lift 0) :=
    (Vec.getElem_truncate _ i).trans (Vec.getElem_ofFn _ _)
  have hright : (k.transformDirection d')[i] = k[i.castSucc].dot (d'.lift 0) :=
    (Vec.getElem_truncate _ i).trans (getElem_mulVec _ _ _)
  rw [hleft, hright]
  exact ((hm _).dot (Nat.le_refl 4) (hk _) hlift hlift' hδ (by norm_num)).mono (by push_cast; linarith)

end Products

/-! ## Rotations -/

theorem Centred.displacementPart_eq {m : Mat ℝ 4 4} (h : m.Centred) : m.displacementPart = .zero := by
  have hpoint := h.point .zero
  rw [transformPoint_eq, transformDirection_eq] at hpoint
  have hsum := congrArg Vec.toFun hpoint
  rw [Vec.toFun_add, add_eq_left, ← Vec.toFun_zero] at hsum
  exact Vec.toFun_injective hsum

/-- The image of an axis is a unit vector. -/
theorem IsRotation.abs_upperLeft_le {m : Mat ℝ 4 4} (h : m.IsRotation) (i j : Fin 3) :
    |m.upperLeft[i][j]| ≤ 1 := by
  let axis : Vec ℝ 3 := .ofFn (Pi.single j 1)
  have hentry : (m.transformDirection axis)[i] = m.upperLeft[i][j] := by
    rw [transformDirection_eq, getElem_mulVec, Vec.dot_eq, Vec.toFun_ofFn, dotProduct_single_one]
    rfl
  have hunit : axis.dot axis = 1 := by
    rw [Vec.dot_eq, Vec.toFun_ofFn, dotProduct_single_one, Pi.single_eq_same]
  rw [← hentry]
  exact Vec.small_of_unit ((h.dot axis axis).trans hunit) i

theorem IsRotation.small {m : Mat ℝ 4 4} (h : m.IsRotation) : m.Small := by
  intro i j
  refine Fin.lastCases ?_ (fun i => ?_) i
  · have hrow : m[Fin.last 3] = Vec.lift .zero 1 := h.affine
    rw [hrow]
    refine Fin.lastCases ?_ (fun j => ?_) j
    · rw [Vec.getElem_lift_last, abs_one]
    · rw [Vec.getElem_lift_castSucc, Vec.getElem_zero, abs_zero]
      exact zero_le_one
  · refine Fin.lastCases ?_ (fun j => ?_) j
    · have hlast : m[i.castSucc][Fin.last 3] = 0 := by
        have hentry : m.displacementPart[i] = m[i.castSucc][Fin.last 3] := getElem_displacementPart m i
        rw [← hentry, h.displacementPart_eq, Vec.getElem_zero]
      rw [hlast, abs_zero]
      exact zero_le_one
    · have hentry := h.abs_upperLeft_le i j
      rwa [getElem_upperLeft, Vec.getElem_truncate] at hentry

/-- The computed sine and cosine of `x` are near those of `θ`. -/
structure AngleNear (x : F32) (θ : ℝ) : Prop where
  sin : Binary.Near (2 * roundoff) (Scalar.sin x) (Real.sin θ)
  cos : Binary.Near (2 * roundoff) (Scalar.cos x) (Real.cos θ)

variable {x : F32} {θ : ℝ}

theorem near_rotation (h : AngleNear x θ) : Near (2 * roundoff) (rotationX x) (rotationX θ) ∧
    Near (2 * roundoff) (rotationY x) (rotationY θ) ∧
      Near (2 * roundoff) (rotationZ x) (rotationZ θ) := by
  have hexact : 0 ≤ 2 * roundoff := by linarith [roundoff_pos]
  have hzero := Binary.near_zero.mono hexact
  have hone := Binary.near_one.mono hexact
  refine ⟨?_, ?_, ?_⟩ <;> intro i j <;> fin_cases i <;> fin_cases j
  all_goals first | exact hzero | exact hone | exact h.sin | exact h.cos | exact h.sin.neg

/-- Three rotations one after the other, each about an angle of its own. -/
theorem near_rotationEuler {angles : Vec F32 3} {θ : Vec ℝ 3} (hx : AngleNear angles.x θ.x)
    (hy : AngleNear angles.y θ.y) (hz : AngleNear angles.z θ.z) :
    Near (146 * roundoff) (rotationEuler angles) (rotationEuler θ) := by
  have hround := roundoff_eq
  have hfirst : Near (26 * roundoff) (rotationX angles.x * rotationY angles.y)
      (rotationX θ.x * rotationY θ.y) := by
    have hmul := (near_rotation hx).1.mul (Nat.le_refl 4) (isRotation_rotationX θ.x).small
      (near_rotation hy).2.1
      (isRotation_rotationY θ.y).small (by linarith) (by linarith)
    exact fun i j => (hmul i j).mono (by push_cast; linarith)
  have hmul := hfirst.mul (Nat.le_refl 4)
    ((isRotation_rotationX θ.x).mul (isRotation_rotationY θ.y)).small
    (near_rotation hz).2.2 (isRotation_rotationZ θ.z).small (by linarith) (by linarith)
  exact fun i j => (hmul i j).mono (by push_cast; linarith)

end SceneEngine.Mat
