/-
Vectors without rounding.

Over a field the operations on vectors are those of linear algebra (`Vec.toFun`), so its
laws of dot and cross products hold of them. With exact roots a vector has the length its
dot product says, and the unit vector it is scaled to has length one.

Two unit vectors at right angles and their cross product are a basis to the right hand
(`RightHanded`): that the third has unit length too is the identity of Lagrange.
-/
import Mathlib.Algebra.Order.BigOperators.Group.Finset
import Mathlib.LinearAlgebra.CrossProduct
import Mathlib.LinearAlgebra.Matrix.DotProduct
import SceneEngine.Proofs.Exact
import SceneEngine.Vec

namespace SceneEngine.Vec

section Coordinates

variable {α : Type} [Scalar α] {n : Nat} (v w : Vec α n) (k : α) (i : Fin n)

theorem getElem_zero : (zero : Vec α n)[i] = 0 := getElem_ofFn _ i

theorem getElem_add : (v + w)[i] = v[i] + w[i] := getElem_ofFn _ i

theorem getElem_sub : (v - w)[i] = v[i] - w[i] := getElem_ofFn _ i

theorem getElem_neg : (-v)[i] = -v[i] := getElem_ofFn _ i

theorem getElem_div : (v / k)[i] = v[i] / k := getElem_ofFn _ i

end Coordinates

/-- The coordinates of a vector, as a vector of linear algebra. -/
def toFun {α : Type} {n : Nat} (v : Vec α n) : Fin n → α := fun i => v[i]

theorem toFun_injective {α : Type} {n : Nat} {v w : Vec α n} (h : v.toFun = w.toFun) : v = w :=
  ext fun i => congrFun h i

@[simp] theorem toFun_ofFn {α : Type} {n : Nat} (g : Fin n → α) : (ofFn g).toFun = g :=
  funext fun i => getElem_ofFn g i

@[simp] theorem x_of3 {α : Type} (x y z : α) : (of3 x y z).x = x := rfl

@[simp] theorem y_of3 {α : Type} (x y z : α) : (of3 x y z).y = y := rfl

@[simp] theorem z_of3 {α : Type} (x y z : α) : (of3 x y z).z = z := rfl

theorem toList_three {α : Type} (v : Vec α 3) : v.toList = [v.x, v.y, v.z] := by
  obtain ⟨⟨⟨list⟩, hsize⟩⟩ := v
  match list, hsize with
  | [_, _, _], _ => rfl

/-- A vector of space is its three coordinates. -/
theorem ext_of3 {α : Type} {v w : Vec α 3} (hx : v.x = w.x) (hy : v.y = w.y) (hz : v.z = w.z) :
    v = w := by
  ext k
  fin_cases k
  · exact hx
  · exact hy
  · exact hz

@[simp] theorem toFun_of3 {α : Type} (x y z : α) : (of3 x y z).toFun = ![x, y, z] := by
  ext i
  fin_cases i <;> rfl

open scoped Exact Matrix

variable {n : Nat}

/-! ## As linear algebra -/

section Ring

variable {R : Type} [RingScalar R]

@[simp] theorem toFun_zero : (zero : Vec R n).toFun = 0 :=
  funext fun i => getElem_ofFn _ i

@[simp] theorem toFun_add (v w : Vec R n) : (v + w).toFun = v.toFun + w.toFun :=
  funext fun i => getElem_ofFn _ i

@[simp] theorem toFun_sub (v w : Vec R n) : (v - w).toFun = v.toFun - w.toFun :=
  funext fun i => getElem_ofFn _ i

@[simp] theorem toFun_neg (v : Vec R n) : (-v).toFun = -v.toFun :=
  funext fun i => getElem_ofFn _ i

@[simp] theorem toFun_mul (v : Vec R n) (k : R) : (v * k).toFun = k • v.toFun :=
  funext fun i => (getElem_ofFn _ i).trans (mul_comm _ _)

@[simp] theorem toFun_cross (v w : Vec R 3) : (v.cross w).toFun = v.toFun ⨯₃ w.toFun := by
  rw [cross_apply]
  exact toFun_of3 _ _ _

theorem dot_eq (v w : Vec R n) : v.dot w = v.toFun ⬝ᵥ w.toFun := RingScalar.sum_eq _

theorem dot_three (v w : Vec R 3) : v.dot w = v.x * w.x + v.y * w.y + v.z * w.z :=
  (RingScalar.sum_eq _).trans (Fin.sum_univ_three _)

theorem dot_comm (v w : Vec R n) : v.dot w = w.dot v := by
  rw [dot_eq, dot_eq, dotProduct_comm]

theorem dot_sub (u v w : Vec R n) : u.dot (v - w) = u.dot v - u.dot w := by
  simp only [dot_eq, toFun_sub, dotProduct_sub]

theorem dot_mul (v w : Vec R n) (k : R) : v.dot (w * k) = k * v.dot w := by
  simp only [dot_eq, toFun_mul, dotProduct_smul, smul_eq_mul]

/-- A cross product stands at right angles to both of its vectors. -/
theorem dot_cross_left (v w : Vec R 3) : v.dot (v.cross w) = 0 := by
  rw [dot_eq, toFun_cross, dot_self_cross]

theorem dot_cross_right (v w : Vec R 3) : w.dot (v.cross w) = 0 := by
  rw [dot_eq, toFun_cross, dot_cross_self]

theorem dot_cross_rotate (u v w : Vec R 3) : u.dot (v.cross w) = v.dot (w.cross u) := by
  rw [dot_eq, dot_eq, toFun_cross, toFun_cross, triple_product_permutation]

end Ring

variable {K : Type} [Field K] [LinearOrder K] [FieldFunctions K]

@[simp] theorem toFun_div (v : Vec K n) (k : K) : (v / k).toFun = k⁻¹ • v.toFun :=
  funext fun i => (getElem_ofFn _ i).trans (div_eq_inv_mul _ _)

@[simp] theorem of3_sub (x y z x' y' z' : K) :
    of3 x y z - of3 x' y' z' = of3 (x - x') (y - y') (z - z') := ext_of3 rfl rfl rfl

@[simp] theorem of3_mul (x y z k : K) : of3 x y z * k = of3 (x * k) (y * k) (z * k) :=
  ext_of3 rfl rfl rfl

@[simp] theorem of3_div (x y z k : K) : of3 x y z / k = of3 (x / k) (y / k) (z / k) :=
  ext_of3 rfl rfl rfl

theorem dot_div (v w : Vec K n) (k : K) : v.dot (w / k) = k⁻¹ * v.dot w := by
  simp only [dot_eq, toFun_div, dotProduct_smul, smul_eq_mul]

/-- The cross product of two vectors vanishes when they lie on one line. -/
theorem cross_eq_zero_iff {v w : Vec K 3} (hw : w.toFun ≠ 0) :
    (v.cross w).toFun = 0 ↔ ∃ k : K, v = w * k := by
  have hline : (v.cross w).toFun = 0 ↔ w.toFun ⨯₃ v.toFun = 0 := by
    rw [toFun_cross, ← cross_anticomm, neg_eq_zero]
  rw [hline, ← not_iff_not, ← ne_eq, crossProduct_ne_zero_iff_linearIndependent,
    LinearIndependent.pair_iff' hw, not_exists]
  refine forall_congr' fun k => not_congr ⟨fun h => toFun_injective ?_, fun h => ?_⟩
  · rw [toFun_mul, h]
  · rw [h, toFun_mul]

theorem add_sub_self (v w : Vec K n) : v + w - w = v := by
  apply toFun_injective
  rw [toFun_sub, toFun_add, add_sub_cancel_right]

theorem sub_add_self (v w : Vec K n) : v - (v + w) = -w := by
  apply toFun_injective
  rw [toFun_sub, toFun_add, toFun_neg, sub_add_cancel_left]

/-! ## Bases to the right hand -/

/-- Three unit vectors at right angles, the third to the right hand of the first two. -/
structure RightHanded (u v w : Vec K 3) : Prop where
  units : u.dot u = 1 ∧ v.dot v = 1 ∧ w.dot w = 1
  right_angles : u.dot v = 0 ∧ v.dot w = 0 ∧ w.dot u = 0
  handed : u.cross v = w

theorem rightHanded_cross {u v : Vec K 3} (hu : u.dot u = 1) (hv : v.dot v = 1)
    (huv : u.dot v = 0) : RightHanded u v (u.cross v) := by
  have hunit : (u.cross v).dot (u.cross v) = 1 := by
    rw [dot_eq] at hu hv huv
    rw [dot_eq, toFun_cross, cross_dot_cross, hu, hv, huv, zero_mul, sub_zero, mul_one]
  exact ⟨⟨hu, hv, hunit⟩, ⟨huv, dot_cross_right u v, (dot_comm _ _).trans (dot_cross_left u v)⟩, rfl⟩

theorem RightHanded.rotate {u v w : Vec K 3} (h : RightHanded u v w) : RightHanded v w u := by
  obtain ⟨⟨hu, hv, hw⟩, ⟨huv, hvw, hwu⟩, hcross⟩ := h
  refine ⟨⟨hv, hw, hu⟩, ⟨hvw, hwu, huv⟩, toFun_injective ?_⟩
  rw [dot_eq] at hv huv
  rw [← hcross, toFun_cross, toFun_cross, cross_cross_eq_smul_sub_smul', hv, huv, one_smul,
    zero_smul, sub_zero]

theorem div_mul_self {v : Vec K n} {k : K} (h : k ≠ 0) : v / k * k = v := by
  apply toFun_injective
  rw [toFun_mul, toFun_div, smul_inv_smul₀ h]

theorem div_one (v : Vec K n) : v / (1 : K) = v := by
  apply toFun_injective
  rw [toFun_div, inv_one, one_smul]

/-! ## Lengths -/

variable [IsStrictOrderedRing K]

theorem dot_self_nonneg (v : Vec K n) : 0 ≤ v.dot v := by
  rw [dot_eq]
  exact Finset.sum_nonneg fun i _ => mul_self_nonneg (v.toFun i)

variable [ExactRoots K]

theorem length_nonneg (v : Vec K n) : 0 ≤ v.length := ExactRoots.sqrt_nonneg _ v.dot_self_nonneg

theorem length_mul_length (v : Vec K n) : v.length * v.length = v.dot v :=
  ExactRoots.sqrt_mul_sqrt _ v.dot_self_nonneg

theorem length_eq {v : Vec K n} {size : K} (hsize : 0 ≤ size) (h : v.dot v = size * size) :
    v.length = size :=
  (mul_self_inj v.length_nonneg hsize).mp (v.length_mul_length.trans h)

theorem length_eq_zero_iff {v : Vec K n} : v.length = 0 ↔ v.toFun = 0 := by
  rw [← mul_self_eq_zero, length_mul_length, dot_eq, dotProduct_self_eq_zero]

theorem dot_div_length {v : Vec K n} (h : v.length ≠ 0) : v.dot (v / v.length) = v.length := by
  rw [dot_div, ← length_mul_length, inv_mul_cancel_left₀ h]

theorem dot_self_div_length {v : Vec K n} (h : v.length ≠ 0) :
    (v / v.length).dot (v / v.length) = 1 := by
  rw [dot_div, dot_comm, dot_div_length h, inv_mul_cancel₀ h]

/-- A vector has a direction when its length exceeds the absolute bound. -/
theorem normalize_eq (t : Tolerance K) (v : Vec K n) : v.normalize t =
    if v.length ≤ t.absolute then .error (.zeroLengthVector v.length) else .ok (v / v.length) := by
  have hzero : (t.isZero v.length || !Scalar.isFinite (widen v.length : K)) = true ↔
      v.length ≤ t.absolute := by
    have hfinite : Scalar.isFinite (widen v.length : K) = true := rfl
    rw [hfinite, Bool.not_true, Bool.or_false, Exact.isZero_iff, abs_of_nonneg v.length_nonneg]
  unfold normalize
  dsimp only
  simp only [hzero]
  rfl

end SceneEngine.Vec
