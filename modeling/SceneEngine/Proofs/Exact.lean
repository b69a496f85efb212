/-
An ordered field as a scalar: the library read without rounding.

Arithmetic, order and equality are those of the field, every value counts as a number
and is measured in the field itself. The roots, angles and remainders a field does not
have come as `FieldFunctions`, about which nothing is assumed. What a result needs of them
it asks for by name: exact roots (`ExactRoots`), or angles on the unit circle (`ExactAngles`).

Much of the geometry only adds and multiplies. What is said of that holds over any commutative ring
(`RingScalar`), of which the ordered fields are some.

The instances are scoped: inside `open Exact` the operations of a scalar unfold to those
of the field, and outside of it no field is taken for a scalar.
-/
import Mathlib.Algebra.BigOperators.Fin
import Mathlib.Algebra.Order.Field.Basic
import SceneEngine.Tolerance

namespace SceneEngine

/-- The functions of a scalar that the arithmetic of a field does not give. -/
class FieldFunctions (K : Type) where
  rem : K → K → K
  sqrt : K → K
  sin : K → K
  cos : K → K
  tan : K → K
  pi : K
  degree : K
  radian : K
  /-- The tolerance of comparisons that name none. -/
  tolerance : Tolerance K

/-- The rationals have none of these functions. Where only arithmetic is done, any will do. -/
@[reducible] def FieldFunctions.arithmetic : FieldFunctions ℚ where
  rem _ _ := 0
  sqrt := id
  sin _ := 0
  cos _ := 1
  tan := id
  pi := 3
  degree := 1
  radian := 1
  tolerance := ⟨0, 0⟩

/-- The roots of values that are not negative are exact. -/
class ExactRoots (K : Type) [Field K] [LinearOrder K] [FieldFunctions K] : Prop where
  sqrt_nonneg : ∀ x : K, 0 ≤ x → 0 ≤ FieldFunctions.sqrt x
  sqrt_mul_sqrt : ∀ x : K, 0 ≤ x → FieldFunctions.sqrt x * FieldFunctions.sqrt x = x

/-- Cosine and sine of an angle are the coordinates of a point of the unit circle. -/
class ExactAngles (K : Type) [Field K] [FieldFunctions K] : Prop where
  sin_sq_add_cos_sq : ∀ angle : K,
    FieldFunctions.sin angle ^ 2 + FieldFunctions.cos angle ^ 2 = 1

/-- A commutative ring as a scalar. Sums and products are those of the ring; of the other
operations nothing is known. -/
structure RingScalar (R : Type) extends Scalar R, CommRing R

attribute [class] RingScalar

namespace RingScalar

-- An ordered field is a scalar and a ring already, and is to be found as such first.
instance (priority := 50) scalar {R : Type} [h : RingScalar R] : Scalar R := h.toScalar

instance (priority := 50) commRing {R : Type} [h : RingScalar R] : CommRing R := h.toCommRing

variable {R : Type} [RingScalar R]

theorem sum_eq {n : Nat} (term : Fin n → R) : Scalar.sum term = ∑ i, term i := by
  rw [Scalar.sum, ← List.foldl_map, ← List.sum_eq_foldl, ← List.ofFn_eq_map, List.sum_ofFn]

end RingScalar

namespace Exact

variable {K : Type} [Field K] [LinearOrder K] [FieldFunctions K]

/-- A field as a scalar: every value is a number, and nothing is rounded. -/
scoped instance scalar : Scalar K where
  toZero := inferInstance
  toOne := inferInstance
  toNatCast := inferInstance
  toAdd := inferInstance
  toSub := inferInstance
  toMul := inferInstance
  toDiv := inferInstance
  toNeg := inferInstance
  toMin := inferInstance
  toMax := inferInstance
  toLT := inferInstance
  toLE := inferInstance
  decidableLT := inferInstance
  decidableLE := inferInstance
  same x y := decide (x = y)
  rem := FieldFunctions.rem
  abs x := |x|
  sqrt := FieldFunctions.sqrt
  sin := FieldFunctions.sin
  cos := FieldFunctions.cos
  tan := FieldFunctions.tan
  isFinite _ := true
  pi := FieldFunctions.pi
  degree := FieldFunctions.degree
  radian := FieldFunctions.radian

scoped instance ringScalar : RingScalar K where
  __ := scalar
  __ := (inferInstance : CommRing K)

/-- Values are measured in the field itself. -/
scoped instance widening : Widening K K := ⟨id, id, FieldFunctions.tolerance⟩

theorem same_iff {x y : K} : Scalar.same x y = true ↔ x = y := decide_eq_true_iff

theorem sum_eq {n : Nat} (term : Fin n → K) : Scalar.sum term = ∑ i, term i :=
  RingScalar.sum_eq term

theorem two_eq : (Scalar.two : K) = 2 := one_add_one_eq_two

theorem isZero_iff {t : Tolerance K} {x : K} : t.isZero x = true ↔ |x| ≤ t.absolute :=
  decide_eq_true_iff

theorem approxEq_iff {t : Tolerance K} {x y : K} : t.approxEq x y = true ↔
    x = y ∨ |x - y| ≤ t.absolute ∨ |x - y| ≤ t.relative * max |x| |y| := by
  have hfinite : Scalar.isFinite |x - y| = true := rfl
  have happrox : t.approxEq x y = if Scalar.same x y then true else
      Scalar.isFinite |x - y| &&
        (decide (|x - y| ≤ t.absolute) || decide (|x - y| ≤ t.relative * max |x| |y|)) := rfl
  rw [happrox, hfinite]
  by_cases h : x = y
  · rw [if_pos (same_iff.mpr h), eq_self, true_iff]
    exact .inl h
  · simp [mt same_iff.mp h, h]

/-- Zero is negligible next to anything, so what is not negligible is no zero. -/
theorem ne_zero_of_not_negligible [IsStrictOrderedRing K] {t : Tolerance K}
    (habs : 0 ≤ t.absolute) (hrel : 0 ≤ t.relative) {x scale : K}
    (h : t.isNegligible x scale = false) : x ≠ 0 := by
  rintro rfl
  have hzero : |(0 : K)| = 0 := abs_zero
  have hscaled : 0 ≤ t.relative * |scale| := mul_nonneg hrel (abs_nonneg scale)
  simp only [Tolerance.isNegligible] at h
  split at h
  · exact of_decide_eq_false h (hzero.trans_le habs)
  · exact of_decide_eq_false h (hzero.trans_le hscaled)

end Exact

end SceneEngine
