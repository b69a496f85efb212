/-
Affine maps as 4 × 4 matrices, without rounding.

On points and on directions a matrix acts by its linear part, and it adds its displacement to
points (`transformPoint_eq`, `transformDirection_eq`). With `(0, 0, 0, 1)` as the last row
(`Affine`) a point goes to a point again, so the product of two matrices acts as the one
after the other, and a matrix is known by what it does to points (`Affine.ext`).
-/
import SceneEngine.Proofs.Mat.Elimination
import SceneEngine.Proofs.Vec
import SceneEngine.Mat.Affine

namespace SceneEngine

namespace Vec

/-- A vector of space with a last coordinate: a point with `w = 1`, a direction with `w = 0`. -/
def lift {α : Type} (v : Vec α 3) (w : α) : Vec α 4 := of4 v.x v.y v.z w

variable {α : Type}

@[simp] theorem getElem_lift_castSucc (v : Vec α 3) (w : α) (i : Fin 3) :
    (v.lift w)[i.castSucc] = v[i] := by
  fin_cases i <;> rfl

@[simp] theorem getElem_lift_last (v : Vec α 3) (w : α) : (v.lift w)[Fin.last 3] = w := rfl

@[simp] theorem getElem_truncate (v : Vec α 4) (i : Fin 3) : v.truncate[i] = v[i.castSucc] := by
  fin_cases i <;> rfl

@[simp] theorem truncate_of4 (x y z w : α) : (of4 x y z w).truncate = of3 x y z := rfl

@[simp] theorem w_of4 (x y z w : α) : (of4 x y z w).w = w := rfl

@[simp] theorem truncate_lift (v : Vec α 3) (w : α) : (v.lift w).truncate = v :=
  Vec.ext fun i => by rw [getElem_truncate, getElem_lift_castSucc]

end Vec

namespace Mat

theorem getElem_upperLeft {α : Type} (m : Mat α 4 4) (i : Fin 3) :
    m.upperLeft[i] = m[i.castSucc].truncate := by
  ext j
  rw [upperLeft, getElem_ofFn, Vec.getElem_truncate]

theorem getElem_displacementPart {α : Type} (m : Mat α 4 4) (i : Fin 3) :
    m.displacementPart[i] = m[i.castSucc].w := by
  fin_cases i <;> rfl

open scoped Exact Matrix

/-! ## How a matrix acts -/

section Ring

variable {R : Type} [RingScalar R]

theorem getElem_mulVec {r c : Nat} (m : Mat R r c) (v : Vec R c) (i : Fin r) :
    (m * v)[i] = m[i].dot v := Vec.getElem_ofFn _ i

@[simp] theorem toFun_mulVec {r c : Nat} (m : Mat R r c) (v : Vec R c) :
    (m * v).toFun = m.toMatrix *ᵥ v.toFun :=
  funext fun i => (getElem_mulVec m v i).trans (Vec.dot_eq _ _)

theorem mul_mulVec {r k c : Nat} (a : Mat R r k) (b : Mat R k c) (v : Vec R c) :
    a * b * v = a * (b * v) := by
  apply Vec.toFun_injective
  simp only [toFun_mulVec, toMatrix_mul, Matrix.mulVec_mulVec]

theorem dot_lift (row : Vec R 4) (v : Vec R 3) (w : R) :
    row.dot (v.lift w) = row.truncate.dot v + row.w * w := by
  rw [Vec.dot, Vec.dot, RingScalar.sum_eq, RingScalar.sum_eq, Fin.sum_univ_castSucc]
  simp only [Vec.getElem_lift_castSucc, Vec.getElem_lift_last, Vec.getElem_truncate]
  rfl

/-- What a matrix makes of a vector with a last coordinate, but for that coordinate. -/
theorem truncate_mul_lift (m : Mat R 4 4) (v : Vec R 3) (w : R) :
    (m * v.lift w).truncate = m.upperLeft * v + m.displacementPart * w := by
  ext i
  have hsum : (m.upperLeft * v + m.displacementPart * w)[i] =
      (m.upperLeft * v)[i] + (m.displacementPart * w)[i] := Vec.getElem_ofFn _ i
  have hscaled : (m.displacementPart * w)[i] = m.displacementPart[i] * w := Vec.getElem_ofFn _ i
  rw [Vec.getElem_truncate, getElem_mulVec, dot_lift, hsum, hscaled, getElem_mulVec,
    getElem_upperLeft, getElem_displacementPart]

theorem transformPoint_eq (m : Mat R 4 4) (p : Vec R 3) :
    m.transformPoint p = m.upperLeft * p + m.displacementPart := by
  refine (truncate_mul_lift m p 1).trans (Vec.toFun_injective ?_)
  simp only [Vec.toFun_add, Vec.toFun_mul, one_smul]

theorem transformDirection_eq (m : Mat R 4 4) (d : Vec R 3) :
    m.transformDirection d = m.upperLeft * d := by
  refine (truncate_mul_lift m d 0).trans (Vec.toFun_injective ?_)
  simp only [Vec.toFun_add, Vec.toFun_mul, zero_smul, add_zero]

/-- What leaves the origin in its place takes points where it takes directions. -/
theorem transformPoint_of_origin {m : Mat R 4 4} (h : m.displacementPart = .zero) (p : Vec R 3) :
    m.transformPoint p = m.transformDirection p := by
  apply Vec.toFun_injective
  rw [transformPoint_eq, transformDirection_eq, h, Vec.toFun_add, Vec.toFun_zero, add_zero]

theorem transformPoint_ofRows4 (a b c d : Vec R 4) (p : Vec R 3) :
    (ofRows4 a b c d).transformPoint p =
      .of3 (a.truncate.dot p + a.w) (b.truncate.dot p + b.w) (c.truncate.dot p + c.w) := by
  rw [transformPoint_eq]
  ext i
  have hsum := Vec.getElem_ofFn (fun i : Fin 3 => ((ofRows4 a b c d).upperLeft * p)[i] +
    (ofRows4 a b c d).displacementPart[i]) i
  refine hsum.trans ?_
  rw [getElem_mulVec, getElem_upperLeft, getElem_displacementPart]
  fin_cases i <;> rfl

theorem transformDirection_ofRows4 (a b c d : Vec R 4) (v : Vec R 3) :
    (ofRows4 a b c d).transformDirection v =
      .of3 (a.truncate.dot v) (b.truncate.dot v) (c.truncate.dot v) := by
  rw [transformDirection_eq]
  ext i
  rw [getElem_mulVec, getElem_upperLeft]
  fin_cases i <;> rfl

theorem transformPoint_identity (p : Vec R 3) : (identity : Mat R 4 4).transformPoint p = p := by
  have hfixed : (identity : Mat R 4 4) * p.lift 1 = p.lift 1 := by
    apply Vec.toFun_injective
    rw [toFun_mulVec, toMatrix_identity, Matrix.one_mulVec]
  show (identity * p.lift 1 : Vec R 4).truncate = p
  rw [hfixed, Vec.truncate_lift]

theorem transformDirection_neg (m : Mat R 4 4) (d : Vec R 3) :
    m.transformDirection (-d) = -m.transformDirection d := by
  apply Vec.toFun_injective
  simp only [transformDirection_eq, toFun_mulVec, Vec.toFun_neg, Matrix.mulVec_neg]

/-- An inverse on one side is one on the other. -/
theorem mul_eq_identity_comm {n : Nat} {a b : Mat R n n} : a * b = identity ↔ b * a = identity := by
  have hmatrix (a b : Mat R n n) : a * b = identity ↔ a.toMatrix * b.toMatrix = 1 := by
    rw [← toMatrix_mul, ← toMatrix_identity]
    exact ⟨congrArg _, toMatrix_injective⟩
  rw [hmatrix, hmatrix, mul_eq_one_comm]

/-! ## Points to points -/

variable {m k : Mat R 4 4}

/-- The last coordinate is kept. -/
theorem lift_truncate (h : m[Fin.last 3] = Vec.lift .zero 1) (v : Vec R 3) (w : R) :
    (m * v.lift w).truncate.lift w = m * v.lift w := by
  ext i
  induction i using Fin.lastCases with
  | last =>
    rw [Vec.getElem_lift_last, getElem_mulVec, h, dot_lift, Vec.truncate_lift, Vec.dot_eq,
      Vec.toFun_zero, zero_dotProduct, zero_add]
    exact (one_mul w).symm
  | cast i => rw [Vec.getElem_lift_castSucc, Vec.getElem_truncate]

theorem transformPoint_mul_of_lastRow (hk : k[Fin.last 3] = Vec.lift .zero 1) (p : Vec R 3) :
    (m * k).transformPoint p = m.transformPoint (k.transformPoint p) := by
  show (m * k * p.lift 1).truncate = (m * (k * p.lift 1).truncate.lift 1).truncate
  rw [lift_truncate hk, mul_mulVec]

theorem transformDirection_mul_of_lastRow (hk : k[Fin.last 3] = Vec.lift .zero 1) (d : Vec R 3) :
    (m * k).transformDirection d = m.transformDirection (k.transformDirection d) := by
  show (m * k * d.lift 0).truncate = (m * (k * d.lift 0).truncate.lift 0).truncate
  rw [lift_truncate hk, mul_mulVec]

theorem lastRow_mul (hm : m[Fin.last 3] = Vec.lift .zero 1) (hk : k[Fin.last 3] = Vec.lift .zero 1) :
    (m * k)[Fin.last 3] = Vec.lift .zero 1 := by
  refine Eq.trans (Vec.ext fun j => ?_) hk
  rw [← toMatrix_apply, toMatrix_mul, Matrix.mul_apply, Fin.sum_univ_castSucc]
  have hzero : ∀ i : Fin 3, m.toMatrix (Fin.last 3) i.castSucc * k.toMatrix i.castSucc j = 0 := by
    intro i
    have hlast : m.toMatrix (Fin.last 3) i.castSucc = (Vec.lift .zero 1 : Vec R 4)[i.castSucc] := by
      rw [toMatrix_apply, hm]
    rw [hlast, Vec.getElem_lift_castSucc, Vec.zero, Vec.splat, Vec.getElem_ofFn]
    exact zero_mul _
  have hone : m.toMatrix (Fin.last 3) (Fin.last 3) = 1 := by
    rw [toMatrix_apply, hm, Vec.getElem_lift_last]
  rw [Finset.sum_eq_zero fun i _ => hzero i, hone, zero_add, one_mul, toMatrix_apply]

end Ring

variable {K : Type} [Field K] [LinearOrder K] [FieldFunctions K]

/-- The last row is that of a matrix that takes points to points and directions to directions. -/
def Affine (m : Mat K 4 4) : Prop := m[Fin.last 3] = Vec.lift .zero 1

variable {m k : Mat K 4 4}

theorem affine_identity : (identity : Mat K 4 4).Affine := rfl

theorem transformPoint_mul (hk : k.Affine) (p : Vec K 3) :
    (m * k).transformPoint p = m.transformPoint (k.transformPoint p) :=
  transformPoint_mul_of_lastRow hk p

theorem transformDirection_mul (hk : k.Affine) (d : Vec K 3) :
    (m * k).transformDirection d = m.transformDirection (k.transformDirection d) :=
  transformDirection_mul_of_lastRow hk d

theorem Affine.mul (hm : m.Affine) (hk : k.Affine) : (m * k).Affine := lastRow_mul hm hk

/-- A matrix from points to points is known by what it does to them. -/
theorem Affine.ext (hm : m.Affine) (hk : k.Affine)
    (h : ∀ p, m.transformPoint p = k.transformPoint p) : m = k := by
  have hmove : m.displacementPart = k.displacementPart := by
    apply Vec.toFun_injective
    simpa only [transformPoint_eq, Vec.toFun_add, toFun_mulVec, Vec.toFun_zero, Matrix.mulVec_zero,
      zero_add] using congrArg Vec.toFun (h .zero)
  have hlinear : m.upperLeft = k.upperLeft := by
    refine toMatrix_injective (Matrix.mulVec_injective (funext fun f => ?_))
    rw [← Vec.toFun_ofFn f, ← toFun_mulVec, ← toFun_mulVec, ← add_left_inj m.displacementPart.toFun,
      ← Vec.toFun_add, ← Vec.toFun_add, ← transformPoint_eq, h, transformPoint_eq, hmove]
  ext i j
  induction i using Fin.lastCases with
  | last => rw [hm, hk]
  | cast i =>
    induction j using Fin.lastCases with
    | last =>
      have hlast := congrArg (fun v : Vec K 3 => v[i]) hmove
      rwa [getElem_displacementPart, getElem_displacementPart] at hlast
    | cast j =>
      have hcast := congrArg (fun a : Mat K 3 3 => a[i][j]) hlinear
      rwa [getElem_upperLeft, getElem_upperLeft, Vec.getElem_truncate, Vec.getElem_truncate] at hcast

end Mat

end SceneEngine
