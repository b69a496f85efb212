/-
Special values.

A NaN stays one under every operation, and no operation makes one of finite numbers save the
division by zero. An infinite operand is harmless while the other is finite and, in a product,
not zero.

`Standard` is what the two formats have in common as scalars: they compute by the operations of
`Binary`, and measured in double precision a zero, an infinity and a NaN are still what they
were.
-/
import SceneEngine.Proofs.Binary.Rounding
import SceneEngine.Tolerance

namespace SceneEngine

namespace Binary

variable {f : Format} {x y : Binary f}

@[simp] theorem isNaN_signedInfinity (negative : Bool) :
    (signedInfinity negative : Binary f).isNaN = false := by
  simp [isNaN, signedInfinity]

theorem isNaN_of_isInfinite (h : x.isInfinite = true) : x.isNaN = false := by
  rw [isInfinite, beq_iff_eq] at h
  simp [isNaN, h]

/-- Nothing is above infinity. -/
theorem le_signedInfinity (hx : x.isNaN = false) : x.le (signedInfinity false) = true := by
  refine le_iff.mpr ⟨hx, isNaN_signedInfinity _, ?_⟩
  have hkey := natAbs_key_le hx
  have hinf : (signedInfinity false : Binary f).key = f.infinity := rfl
  omega

theorem isInfinite_of_le (hx : x.isInfinite = true) (hsign : x.negative = false) (h : x.le y = true) :
    y.isInfinite = true := by
  obtain ⟨-, hy, hkey⟩ := le_iff.mp h
  have hle := natAbs_key_le hy
  rw [isInfinite, beq_iff_eq] at hx ⊢
  rw [key, hsign, hx] at hkey
  rw [← natAbs_key]
  simp only [Bool.false_eq_true, if_false] at hkey
  omega

theorem isZero_of_isInfinite (hf : 0 < f.infinity) (h : x.isInfinite = true) : x.isZero = false := by
  rw [isInfinite, beq_iff_eq] at h
  rw [isZero, h, beq_eq_false_iff_ne]
  exact Nat.ne_of_gt hf

/-! ## What makes a NaN -/

theorem isNaN_sub_left (h : x.isNaN = true) : (x.sub y).isNaN = true := by simp [sub, h]

theorem isNaN_sub_right (h : y.isNaN = true) : (x.sub y).isNaN = true := by
  unfold sub
  split
  · next hx => exact hx
  · simp [h]

theorem isNaN_sub_of_isFinite (hx : x.isFinite = true) (hy : y.isNaN = false) :
    (x.sub y).isNaN = false := by
  cases hfin : y.isFinite with
  | true => exact isNaN_sub hx hfin
  | false =>
    have hinf : y.neg.isInfinite = true := isInfinite_of_not_isFinite hfin hy
    have hnan : y.neg.isNaN = false := hy
    simp only [sub_eq_add_neg (isNaN_of_isFinite hx) hy, add, isNaN_of_isFinite hx, hnan,
      isInfinite_of_isFinite hx, hinf, Bool.false_eq_true, if_false, if_true]

/-- Of numbers, only an infinity and a zero have no product. -/
theorem isNaN_mul (hx : x.isNaN = false) (hy : y.isNaN = false)
    (h : x.isInfinite = true ∨ y.isInfinite = true → x.isZero = false ∧ y.isZero = false) :
    (x.mul y).isNaN = false := by
  simp only [mul, hx, hy, Bool.false_eq_true, if_false]
  split
  · next hinf =>
    obtain ⟨hxz, hyz⟩ := h (by simpa using hinf)
    simp [hxz, hyz]
  · exact isNaN_nearest _ _ _

theorem mul_of_isInfinite (hx : x.isNaN = false) (hxz : x.isZero = false) (hy : y.isNaN = false)
    (hyz : y.isZero = false) (h : y.isInfinite = true) :
    x.mul y = signedInfinity (x.negative != y.negative) := by
  simp [mul, hx, hxz, hy, hyz, h]

theorem negative_mul (hx : x.isNaN = false) (hxz : x.isZero = false) (hy : y.isNaN = false)
    (hyz : y.isZero = false) : (x.mul y).negative = (x.negative != y.negative) := by
  simp only [mul, hx, hxz, hy, hyz, Bool.false_eq_true, if_false, Bool.or_self]
  split <;> rfl

theorem isNaN_div_right (h : y.isNaN = true) : (x.div y).isNaN = true := by
  unfold div
  dsimp only
  split
  · next hx => exact hx
  · simp [h]

/-- Of numbers, only two infinities and two zeros have no quotient. -/
theorem isNaN_div (hx : x.isNaN = false) (hy : y.isNaN = false)
    (hinf : x.isInfinite = true → y.isInfinite = false) (hzero : x.isZero = true → y.isZero = false) :
    (x.div y).isNaN = false := by
  simp only [div, hx, hy, Bool.false_eq_true, if_false]
  split
  · next h => simp [hinf h]
  split
  · exact isNaN_of_zero rfl
  split
  · next hyz =>
    have hxz : x.isZero = false := Bool.eq_false_iff.mpr fun h => by simp [hzero h] at hyz
    simp [hxz]
  · exact isNaN_nearest _ _ _

theorem isNaN_tan (h : x.isNaN = true) : x.tan.isNaN = true := by simp [tan, h]

/-! ## Addition keeps the order -/

theorem isNaN_add_right (h : y.isNaN = true) : (x.add y).isNaN = true := by
  unfold add
  split
  · next hx => exact hx
  · simp [h]

/-- An infinity takes up what is finite, and stands at an end of the order. -/
theorem add_of_not_isFinite (hx : x.isNaN = false) (hxfin : x.isFinite = false)
    (hy : y.isFinite = true) : x.add y = x ∧ x.key.natAbs = f.infinity := by
  have hinf := isInfinite_of_not_isFinite hxfin hx
  refine ⟨by simp [add, hx, hinf, isNaN_of_isFinite hy, isInfinite_of_isFinite hy], ?_⟩
  rw [natAbs_key]
  simpa [isInfinite] using hinf

/-- It takes up everything but the other infinity. -/
theorem add_of_isInfinite_right (hf : f.infinity < f.quietNaN) (hy : y.isInfinite = true)
    (h : (x.add y).isNaN = false) : x.add y = y := by
  have hinvalid : (invalid : Binary f).isNaN = true := decide_eq_true hf
  have hynan := isNaN_of_isInfinite hy
  unfold add at h ⊢
  cases hx : x.isNaN with
  | true => simp [hx] at h
  | false =>
    simp only [hx, hynan, hy, Bool.true_and, Bool.false_eq_true, if_false, if_true] at h ⊢
    cases hxinf : x.isInfinite with
    | false => rfl
    | true =>
      simp only [hxinf, if_true] at h ⊢
      by_cases hsign : x.negative = y.negative
      · rw [isInfinite, beq_iff_eq] at hxinf hy
        simp only [hsign, bne_self_eq_false, Bool.false_eq_true, if_false]
        exact Binary.ext hsign (hxinf.trans hy.symm)
      · simp [hsign, hinvalid] at h

/-- As long as they are numbers, sums with one more number are in the order of what was there. -/
theorem add_le_add_right {z : Binary f} (hf : 0 < f.precision) (hquiet : f.infinity < f.quietNaN)
    (h : x.le y = true) (hx : (x.add z).isNaN = false) (hy : (y.add z).isNaN = false) :
    (x.add z).le (y.add z) = true := by
  obtain ⟨hxnan, hynan, hkey⟩ := le_iff.mp h
  have hznan : z.isNaN = false := by
    cases hz : z.isNaN with
    | false => rfl
    | true => exact absurd (isNaN_add_right (x := x) hz) (by simp [hx])
  refine le_iff.mpr ⟨hx, hy, ?_⟩
  have hxsum := natAbs_key_le hx
  have hysum := natAbs_key_le hy
  cases hz : z.isFinite with
  | false =>
    have hinf := isInfinite_of_not_isFinite hz hznan
    rw [add_of_isInfinite_right hquiet hinf hx, add_of_isInfinite_right hquiet hinf hy]
  | true =>
    cases hxfin : x.isFinite with
    | false =>
      obtain ⟨hstay, hplace⟩ := add_of_not_isFinite hxnan hxfin hz
      rw [hstay]
      cases hyfin : y.isFinite with
      | false =>
        rw [(add_of_not_isFinite hynan hyfin hz).1]
        exact hkey
      | true =>
        have hlt := lt_infinity hyfin
        rw [← natAbs_key] at hlt
        omega
    | true =>
      cases hyfin : y.isFinite with
      | false =>
        obtain ⟨hstay, hplace⟩ := add_of_not_isFinite hynan hyfin hz
        have hlt := lt_infinity hxfin
        rw [← natAbs_key] at hlt
        rw [hstay]
        omega
      | true =>
        rw [key_add hxfin hz, key_add hyfin hz]
        exact nearestKey_mono hf (Int.add_le_add_right (units_le hkey) _)

/-! ## What the two formats have in common -/

/-- A scalar that computes as its format does and keeps its kind when it is measured. -/
class Standard (f : Format) [Scalar (Binary f)] [Widening (Binary f) F64] : Prop where
  arithmetic : ∃ pi degree radian : Binary f, ‹Scalar (Binary f)› = Binary.scalar pi degree radian
  one : (1 : Binary f).isFinite = true
  degree : (Scalar.degree : Binary f).isFinite = true ∧ (Scalar.degree : Binary f).isZero = false
  isNaN_widen : ∀ x : Binary f, (widen x : F64).isNaN = x.isNaN
  isInfinite_widen : ∀ x : Binary f, (widen x : F64).isInfinite = x.isInfinite
  isZero_widen : ∀ x : Binary f, x.isZero = true → (widen x : F64).isZero = true

/-- Conversion to double precision keeps the kind of a number. -/
theorem kind_convert (x : F32) : (x.convert : F64).isNaN = x.isNaN ∧
    (x.convert : F64).isInfinite = x.isInfinite := by
  cases hnan : x.isNaN with
  | true =>
    have hinf : x.isInfinite = false := by
      simp only [isNaN, decide_eq_true_eq, isInfinite, beq_eq_false_iff_ne] at hnan ⊢
      omega
    simp only [convert, hnan, hinf, if_true]
    exact ⟨show decide (Format.double.infinity < Format.double.quietNaN) = true by decide,
      show (Format.double.quietNaN == Format.double.infinity) = false by decide⟩
  | false =>
    cases hfin : x.isFinite with
    | true =>
      obtain ⟨hwide, -, -⟩ := widen_exact hfin
      exact ⟨isNaN_of_isFinite hwide,
        (isInfinite_of_isFinite hwide).trans (isInfinite_of_isFinite hfin).symm⟩
    | false =>
      have hinf := isInfinite_of_not_isFinite hfin hnan
      simp only [convert, hnan, hinf, Bool.false_eq_true, if_false, if_true]
      exact ⟨isNaN_signedInfinity _, by simp [isInfinite, signedInfinity]⟩

theorem isZero_convert {x : F32} (h : x.isZero = true) : (x.convert : F64).isZero = true := by
  have hzero : x = signedZero x.negative := Binary.ext rfl (beq_iff_eq.mp h)
  rw [hzero]
  cases x.negative <;> decide

instance : Standard .single where
  arithmetic := ⟨_, _, _, rfl⟩
  one := by decide +kernel
  degree := by decide
  isNaN_widen x := (kind_convert x).1
  isInfinite_widen x := (kind_convert x).2
  isZero_widen _ := isZero_convert

instance : Standard .double where
  arithmetic := ⟨_, _, _, rfl⟩
  one := by decide +kernel
  degree := by decide
  isNaN_widen _ := rfl
  isInfinite_widen _ := rfl
  isZero_widen _ h := h

namespace Standard

variable [Scalar (Binary f)] [Widening (Binary f) F64] [Standard f]

theorem zero_eq : (0 : Binary f) = signedZero false := by
  obtain ⟨_, _, _, rfl⟩ := arithmetic (f := f)
  rfl

theorem isFinite_zero : (0 : Binary f).isFinite = true := by
  have hone := lt_infinity (one (f := f))
  rw [zero_eq]
  exact decide_eq_true (Nat.zero_lt_of_lt hone)

theorem sub_eq : x - y = x.sub y := by
  obtain ⟨_, _, _, rfl⟩ := arithmetic (f := f)
  rfl

theorem mul_eq : x * y = x.mul y := by
  obtain ⟨_, _, _, rfl⟩ := arithmetic (f := f)
  rfl

theorem div_eq : x / y = x.div y := by
  obtain ⟨_, _, _, rfl⟩ := arithmetic (f := f)
  rfl

theorem tan_eq : Scalar.tan x = x.tan := by
  obtain ⟨_, _, _, rfl⟩ := arithmetic (f := f)
  rfl

theorem same_eq : Scalar.same x y = x.eq y := by
  obtain ⟨_, _, _, rfl⟩ := arithmetic (f := f)
  rfl

theorem abs_eq : Scalar.abs x = x.abs := by
  obtain ⟨_, _, _, rfl⟩ := arithmetic (f := f)
  rfl

theorem lt_iff : x < y ↔ x.lt y = true := by
  obtain ⟨_, _, _, rfl⟩ := arithmetic (f := f)
  exact Iff.rfl

theorem le_iff : x ≤ y ↔ x.le y = true := by
  obtain ⟨_, _, _, rfl⟩ := arithmetic (f := f)
  exact Iff.rfl

theorem same_zero_iff : Scalar.same x 0 = true ↔ x.isZero = true := by
  have hzero : (signedZero false : Binary f).isNaN = false ∧ (signedZero false : Binary f).key = 0 :=
    ⟨isNaN_of_zero rfl, rfl⟩
  simp only [same_eq, zero_eq, eq, hzero, isZero, Bool.not_false, Bool.and_true, Bool.and_eq_true,
    decide_eq_true_eq, Bool.not_eq_true', beq_iff_eq]
  rw [← Int.natAbs_eq_zero, natAbs_key]
  exact and_iff_right_of_imp isNaN_of_zero

theorem of_pos (h : 0 < x) : x.isNaN = false ∧ x.negative = false ∧ x.isZero = false := by
  rw [zero_eq, lt_iff, Binary.lt_iff] at h
  obtain ⟨-, hnan, hkey⟩ := h
  have hpos : 0 < x.key := hkey
  refine ⟨hnan, negative_of_key_pos hpos, ?_⟩
  rw [isZero, beq_eq_false_iff_ne, ← natAbs_key]
  omega

end Standard

end Binary

end SceneEngine
