/-
How far rounding goes.

A finite number stands for a real one (`Binary.toReal`). Below a power of two the numbers of the
format are no farther apart than the last place of the numbers under that power, so a value is
rounded by half of that at most, and a little above the power this is still so
(`nearest_error`). For single precision `Rounded x v` says so of every power of two at once, and
every operation on finite numbers is the rounding of its exact result.

`Near δ x v` is what is left of that in a longer computation: a finite number, off by at most
`δ`.
-/
import Mathlib.Algebra.BigOperators.Fin
import Mathlib.Analysis.Real.Sqrt
import Mathlib.Tactic.FieldSimp
import Mathlib.Tactic.Linarith
import SceneEngine.Proofs.Binary.Rounding

namespace SceneEngine

theorem Format.unitBits_single : Format.single.unitBits = 149 := by decide

namespace Binary

section Units

variable {f : Format} {n d e : Nat}

/-- How far the significand `q` of a value is scaled, whose leading bit is `lead`: no farther than the
value allows, or it is the next power of two that the value has been rounded to. -/
theorem scale_le {lead q s : Nat} (hpos : 0 < lead) (hd : 0 < d)
    (hvalue : 2 * n ≤ d * 2 ^ e * (4 * lead + 1))
    (hround : 2 * q * (d * 2 ^ s) ≤ 2 * n + d * 2 ^ s) (hlead : s = 0 ∨ lead ≤ q)
    (hfull : s = 0 ∨ lead * (d * 2 ^ s) ≤ n) : s ≤ e ∨ s = e + 1 ∧ q = lead := by
  have hplace : 0 < d * 2 ^ e := Nat.mul_pos hd (Nat.two_pow_pos e)
  refine (Nat.lt_or_ge e s).symm.imp id fun hlt => ?_
  obtain ⟨r, rfl⟩ := Nat.exists_eq_add_of_lt hlt
  have hr : 4 * lead * 2 ^ r ≤ 4 * lead + 1 := by
    refine Nat.le_of_mul_le_mul_left ?_ hplace
    calc d * 2 ^ e * (4 * lead * 2 ^ r) = 2 * (lead * (d * 2 ^ (e + r + 1))) := by ring
      _ ≤ 2 * n := Nat.mul_le_mul_left 2 (hfull.resolve_left (by omega))
      _ ≤ d * 2 ^ e * (4 * lead + 1) := hvalue
  obtain rfl : r = 0 := by
    refine Nat.eq_zero_of_not_pos fun hr' => ?_
    have htwo : 2 ^ 1 ≤ 2 ^ r := Nat.pow_le_pow_right Nat.two_pos hr'
    have := Nat.mul_le_mul_left (4 * lead) htwo
    omega
  have hq : 4 * q ≤ 4 * lead + 3 := by
    refine Nat.le_of_mul_le_mul_left ?_ hplace
    calc d * 2 ^ e * (4 * q) = 2 * q * (d * 2 ^ (e + 0 + 1)) := by ring
      _ ≤ 2 * n + d * 2 ^ (e + 0 + 1) := hround
      _ ≤ d * 2 ^ e * (4 * lead + 1) + d * 2 ^ (e + 0 + 1) := Nat.add_le_add_right hvalue _
      _ = d * 2 ^ e * (4 * lead + 3) := by ring
  exact ⟨rfl, by omega⟩

/-- Up to a power of two, and half a place beyond it, a value is rounded by at most half a place,
and the result is at most that power. -/
theorem nearest_error (negative : Bool) (hf : 0 < f.precision) (hd : 0 < d)
    (hroom : (e + 2) * f.leadingBit < f.infinity) (h : 2 * n ≤ d * (2 * 2 ^ (f.precision + e) + 2 ^ e)) :
    (nearest negative n d : Binary f).isFinite = true ∧
    2 * ((nearest negative n d : Binary f).unitCount * d) ≤ 2 * n + d * 2 ^ e ∧
    2 * n ≤ 2 * ((nearest negative n d : Binary f).unitCount * d) + d * 2 ^ e := by
  obtain ⟨s, q, hmag, hq, hlong, hfull⟩ := exists_nearest_significand (f := f) hf negative n hd
  have hpos : 0 < d * 2 ^ s := Nat.mul_pos hd (Nat.two_pow_pos s)
  have hlead : s = 0 ∨ f.leadingBit ≤ q := hfull.imp id fun h => hq ▸ le_roundHalfEven hpos h
  have hbelow : 2 * q * (d * 2 ^ s) ≤ 2 * n + d * 2 ^ s := hq ▸ two_mul_roundHalfEven_le n _
  have habove : 2 * n ≤ (2 * q + 1) * (d * 2 ^ s) := hq ▸ le_two_mul_roundHalfEven n hpos
  have hone := f.leadingBit_pos
  have hvalue : 2 * n ≤ d * 2 ^ e * (4 * f.leadingBit + 1) := by
    rw [Nat.pow_add, ← Format.two_mul_leadingBit hf] at h
    calc 2 * n ≤ d * (2 * (2 * f.leadingBit * 2 ^ e) + 2 ^ e) := h
      _ = d * 2 ^ e * (4 * f.leadingBit + 1) := by ring
  have hscale := scale_le hone hd hvalue hbelow hlead hfull
  have hsmall : s * f.leadingBit + q ≤ (e + 2) * f.leadingBit := by
    rcases hscale with hs | ⟨rfl, rfl⟩
    · have := Nat.mul_le_mul_right f.leadingBit hs
      rw [Nat.add_mul]
      omega
    · rw [Nat.add_mul, Nat.add_mul]
      omega
  have hmag : (nearest negative n d : Binary f).magnitude = s * f.leadingBit + q := by omega
  have hcount : (nearest negative n d : Binary f).unitCount * d = q * (d * 2 ^ s) := by
    rw [unitCount, hmag, Format.unitsAt_significand hlong hlead]
    ring
  refine ⟨decide_eq_true (by omega), ?_⟩
  rw [hcount]
  rcases hscale with hs | ⟨rfl, rfl⟩
  · have hle : d * 2 ^ s ≤ d * 2 ^ e := Nat.mul_le_mul_left d (Nat.pow_le_pow_right Nat.two_pos hs)
    rw [Nat.mul_assoc] at hbelow
    rw [Nat.add_mul, Nat.mul_assoc] at habove
    omega
  · have hfull := hfull.resolve_left (by omega)
    have hdouble : f.leadingBit * (d * 2 ^ (e + 1)) * 2 + d * 2 ^ e =
        d * 2 ^ e * (4 * f.leadingBit + 1) := by
      ring
    omega

/-- Above a power of two the numbers of the format are at least so far apart. -/
theorem unitsAt_add_le {k m : Nat} (h : (k + 1) * f.leadingBit ≤ m) :
    f.unitsAt m + 2 ^ k ≤ f.unitsAt (m + 1) := by
  obtain ⟨s, q, rfl, -, hq, hm, hsucc⟩ := f.exists_unitsAt_succ m
  have hks : k ≤ s := by
    refine Nat.not_lt.mp fun hlt => ?_
    have hmul : (s + 2) * f.leadingBit ≤ (k + 1) * f.leadingBit := Nat.mul_le_mul_right _ (by omega)
    rw [Nat.add_mul] at hmul
    omega
  have hpow : 2 ^ k ≤ 2 ^ s := Nat.pow_le_pow_right Nat.two_pos hks
  rw [hm, hsucc, Nat.succ_mul]
  omega

/-- So a number takes no notice of what is less than half as large as that. -/
theorem add_eq_left {k : Nat} {x y : Binary f} (hf : 0 < f.precision) (hx : x.isFinite = true)
    (hy : y.isFinite = true) (hlarge : (k + 1) * f.leadingBit < x.magnitude)
    (hsmall : 2 * y.unitCount < 2 ^ k) : x.add y = x := by
  obtain ⟨m, hm⟩ := Nat.exists_eq_add_of_lt hlarge
  generalize hb : (k + 1) * f.leadingBit + m = b at hm
  have hbelow : f.unitsAt b + 2 ^ k ≤ f.unitsAt (b + 1) := unitsAt_add_le (by omega)
  have habove : f.unitsAt (b + 1) + 2 ^ k ≤ f.unitsAt (b + 1 + 1) := unitsAt_add_le (by omega)
  have hcount : x.unitCount = f.unitsAt (b + 1) := by rw [unitCount, hm]
  have hsum : x.units + y.units ≠ 0 ∧ decide (x.units + y.units < 0) = x.negative ∧
      (x.units + y.units).natAbs ≤ x.unitCount + y.unitCount ∧
      x.unitCount ≤ (x.units + y.units).natAbs + y.unitCount := by
    cases hxs : x.negative <;> cases hys : y.negative <;>
      simp only [units, hxs, hys, Bool.false_eq_true, if_false, if_true, decide_eq_true_eq,
        decide_eq_false_iff_not] <;>
      omega
  obtain ⟨hne, hsign, hhigh, hlow⟩ := hsum
  have hlt := lt_infinity hx
  rw [add_of_isFinite hx hy, if_neg hne]
  refine Binary.ext hsign ?_
  rw [hm]
  refine Nat.le_antisymm (nearest_le_of_lt_middle hf Nat.one_pos (by omega))
    (Nat.not_lt.mp fun hless => ?_)
  have := le_middle_of_nearest_le hf Nat.one_pos (Nat.le_of_lt_succ hless) (by omega)
  omega

theorem sub_eq_zero {x : Binary f} (hx : x.isFinite = true) : x.sub x = signedZero false := by
  have hneg : x.neg.isFinite = true := hx
  have hsum : x.units + x.neg.units = 0 := by rw [units_neg]; omega
  have hsign : (x.negative && x.neg.negative) = false := by simp [neg]
  rw [sub_eq_add_neg (isNaN_of_isFinite hx) (isNaN_of_isFinite hx), add_of_isFinite hx hneg,
    if_pos hsum, hsign]

end Units

/-! ## Real values -/

/-- The value of the given sign and size. -/
noncomputable def signed (negative : Bool) (size : ℝ) : ℝ := if negative then -size else size

section Signed

variable (a b : Bool) (r t : ℝ)

theorem abs_signed : |signed a r| = |r| := by
  cases a
  · rfl
  · exact abs_neg r

theorem signed_sub : signed a r - signed a t = signed a (r - t) := by
  cases a
  · rfl
  · exact (neg_sub' r t).symm

theorem signed_mul : signed a r * signed b t = signed (a != b) (r * t) := by
  cases a <;> cases b <;> simp [signed]

theorem signed_div : signed a r / signed b t = signed (a != b) (r / t) := by
  cases a <;> cases b <;> simp [signed, neg_div, div_neg]

end Signed

section Reals

variable {f : Format} {x y : Binary f} {δ v : ℝ}

/-- The real number a finite number stands for. -/
noncomputable def toReal (x : Binary f) : ℝ := signed x.negative (x.unitCount / 2 ^ f.unitBits)

/-- A finite number that is off `v` by at most `δ`. -/
structure Near (δ : ℝ) (x : Binary f) (v : ℝ) : Prop where
  isFinite : x.isFinite = true
  error : |x.toReal - v| ≤ δ

theorem near_self (hx : x.isFinite = true) : Near 0 x x.toReal := ⟨hx, by simp⟩

theorem Near.mono {ε : ℝ} (h : Near δ x v) (hle : δ ≤ ε) : Near ε x v :=
  ⟨h.isFinite, h.error.trans hle⟩

/-- What is near a value is near those close to it. -/
theorem Near.trans {ε w : ℝ} (h : Near δ x v) (hw : |v - w| ≤ ε) : Near (δ + ε) x w :=
  ⟨h.isFinite, (abs_sub_le _ v _).trans (add_le_add h.error hw)⟩

theorem toReal_eq_units (x : Binary f) : x.toReal = x.units / 2 ^ f.unitBits := by
  cases hx : x.negative <;> simp [toReal, signed, units, hx, neg_div]

theorem toReal_neg (x : Binary f) : x.neg.toReal = -x.toReal := by
  rw [toReal_eq_units, units_neg, toReal_eq_units, Int.cast_neg, neg_div]

theorem abs_toReal (x : Binary f) : |x.toReal| = x.unitCount / 2 ^ f.unitBits := by
  rw [toReal, abs_signed, abs_of_nonneg (by positivity)]

theorem toReal_of_isZero (h : x.isZero = true) : x.toReal = 0 := by
  rw [toReal_eq_units, units_of_zero (beq_iff_eq.mp h), Int.cast_zero, zero_div]

theorem isZero_of_toReal (h : x.toReal = 0) : x.isZero = true := by
  have habs := abs_toReal x
  rw [h, abs_zero, eq_comm, div_eq_zero_iff] at habs
  have hcount : f.unitsAt x.magnitude = f.unitsAt 0 :=
    (Nat.cast_eq_zero.mp (habs.resolve_right (by positivity))).trans f.unitsAt_zero.symm
  exact beq_iff_eq.mpr (f.unitsAt_strictMono.injective hcount)

end Reals

/-! ## Rounded values of single precision -/

/-- Off `v` by no more than rounding would: up to each power of two, and half a place beyond it,
by half a place. -/
def Rounded (x : F32) (v : ℝ) : Prop :=
  ∀ k ≤ 100, |v| ≤ 2 ^ k * (1 + 1 / 2 ^ 25) → Near (2 ^ k / 2 ^ 25) x v

variable {x y : F32} {v : ℝ}

theorem near_zero : Near 0 (0 : F32) 0 := ⟨by decide, by rw [toReal_of_isZero rfl, sub_self, abs_zero]⟩

theorem toReal_one : (ofNat 1 : F32).toReal = 1 := by
  have hunits : (ofNat 1 : F32).units = 2 ^ Format.single.unitBits := by decide
  rw [toReal_eq_units, hunits, Int.cast_pow, Int.cast_ofNat, div_self (by positivity)]

theorem near_one : Near 0 (1 : F32) 1 := by
  have hone : (1 : F32).toReal = 1 := toReal_one
  exact ⟨by decide, by rw [hone, sub_self, abs_zero]⟩

theorem rounded_of_eq (hx : x.isFinite = true) (h : x.toReal = v) : Rounded x v :=
  fun _ _ _ => h ▸ (near_self hx).mono (by positivity)

theorem rounded_nearest {d : Nat} (negative : Bool) (n : Nat) (hd : 0 < d) :
    Rounded (nearest negative n d) (signed negative (n / d / 2 ^ 149)) := by
  intro k hk hv
  have hd' : (0 : ℝ) < d := Nat.cast_pos.mpr hd
  rw [abs_signed, abs_of_nonneg (by positivity), div_div, div_le_iff₀ (by positivity)] at hv
  have hn : 2 * n ≤ d * (2 * 2 ^ (24 + (k + 125)) + 2 ^ (k + 125)) := by
    have hreal : (2 * n : ℝ) ≤ d * (2 * 2 ^ (24 + (k + 125)) + 2 ^ (k + 125)) := by
      calc (2 * n : ℝ) ≤ 2 * (2 ^ k * (1 + 1 / 2 ^ 25) * (d * 2 ^ 149)) := by linarith
        _ = d * (2 * 2 ^ (24 + (k + 125)) + 2 ^ (k + 125)) := by
          rw [pow_add, pow_add]
          ring
    exact_mod_cast hreal
  have hroom : (k + 125 + 2) * Format.single.leadingBit < Format.single.infinity := by
    have hinf : Format.single.infinity = 255 * Format.single.leadingBit := by decide
    rw [hinf]
    exact Nat.mul_lt_mul_of_pos_right (by omega) Format.single.leadingBit_pos
  obtain ⟨hfin, hbelow, habove⟩ :=
    nearest_error negative (by decide : 0 < Format.single.precision) hd hroom hn
  refine ⟨hfin, ?_⟩
  generalize hx : (nearest negative n d : F32) = x at hbelow habove
  have hsign : x.negative = negative := by rw [← hx]; rfl
  have hbelow' : (2 * (x.unitCount * d) : ℝ) ≤ 2 * n + d * 2 ^ (k + 125) := by exact_mod_cast hbelow
  have habove' : (2 * n : ℝ) ≤ 2 * (x.unitCount * d) + d * 2 ^ (k + 125) := by exact_mod_cast habove
  rw [toReal, hsign, signed_sub, abs_signed, Format.unitBits_single, ← sub_div,
    abs_div, abs_of_pos (by positivity : (0 : ℝ) < 2 ^ 149), div_le_iff₀ (by positivity)]
  have hplace : (2 : ℝ) ^ k / 2 ^ 25 * 2 ^ 149 = 2 ^ (k + 125) / 2 := by
    rw [pow_add]
    ring
  rw [hplace, abs_le, neg_le_sub_iff_le_add, sub_le_iff_le_add, div_le_iff₀ hd', ← sub_le_iff_le_add',
    le_div_iff₀ hd']
  constructor
  · linarith
  · linarith

theorem rounded_add (hx : x.isFinite = true) (hy : y.isFinite = true) :
    Rounded (x.add y) (x.toReal + y.toReal) := by
  have hsum : x.toReal + y.toReal = ((x.units + y.units : Int) : ℝ) / 2 ^ 149 := by
    rw [toReal_eq_units, toReal_eq_units, ← add_div, Int.cast_add]
    rfl
  rw [hsum, add_of_isFinite hx hy]
  split
  · next hzero =>
    refine rounded_of_eq (by cases x.negative <;> cases y.negative <;> decide) ?_
    rw [hzero, toReal_of_isZero rfl, Int.cast_zero, zero_div]
  · have hvalue : ((x.units + y.units : Int) : ℝ) / 2 ^ 149 =
        signed (decide (x.units + y.units < 0))
          (((x.units + y.units).natAbs : ℝ) / (1 : ℕ) / 2 ^ 149) := by
      generalize x.units + y.units = i
      rw [Nat.cast_one, div_one, Nat.cast_natAbs, Int.cast_abs]
      rcases lt_or_ge i 0 with h | h
      · have h' : (i : ℝ) < 0 := Int.cast_lt_zero.mpr h
        rw [decide_eq_true h, signed, if_pos rfl, abs_of_neg h', neg_div, neg_neg]
      · have h' : (0 : ℝ) ≤ i := Int.cast_nonneg h
        rw [decide_eq_false (Int.not_lt.mpr h), signed, if_neg Bool.false_ne_true, abs_of_nonneg h']
    rw [hvalue]
    exact rounded_nearest _ _ Nat.one_pos

theorem rounded_sub (hx : x.isFinite = true) (hy : y.isFinite = true) :
    Rounded (x.sub y) (x.toReal - y.toReal) := by
  have hvalue : x.toReal - y.toReal = x.toReal + y.neg.toReal := by rw [toReal_neg]; ring
  rw [sub_eq_add_neg (isNaN_of_isFinite hx) (isNaN_of_isFinite hy), hvalue]
  exact rounded_add (y := y.neg) hx hy

theorem rounded_mul (hx : x.isFinite = true) (hy : y.isFinite = true) :
    Rounded (x.mul y) (x.toReal * y.toReal) := by
  simp only [mul, isNaN_of_isFinite hx, isNaN_of_isFinite hy, isInfinite_of_isFinite hx,
    isInfinite_of_isFinite hy, Bool.false_eq_true, if_false, Bool.or_self]
  have hvalue : x.toReal * y.toReal = signed (x.negative != y.negative)
      (((x.unitCount * y.unitCount : Nat) : ℝ) /
        ((1 <<< Format.single.unitBits : Nat) : ℝ) / 2 ^ 149) := by
    rw [toReal, toReal, signed_mul, Nat.one_shiftLeft]
    push_cast
    congr 1
    rw [Format.unitBits_single]
    ring
  rw [hvalue]
  exact rounded_nearest _ _ (Format.one_shiftLeft_pos _)

theorem rounded_div (hx : x.isFinite = true) (hy : y.isFinite = true) (h : y.toReal ≠ 0) :
    Rounded (x.div y) (x.toReal / y.toReal) := by
  have hzero : y.isZero = false := Bool.eq_false_iff.mpr fun hz => h (toReal_of_isZero hz)
  have hpos : 0 < y.unitCount := Nat.pos_of_ne_zero fun hz => h (by
    rw [toReal, hz]
    cases y.negative <;> simp [signed])
  simp only [div, isNaN_of_isFinite hx, isNaN_of_isFinite hy, isInfinite_of_isFinite hx,
    isInfinite_of_isFinite hy, hzero, Bool.false_eq_true, if_false]
  have hvalue : x.toReal / y.toReal = signed (x.negative != y.negative)
      (((x.unitCount <<< Format.single.unitBits : Nat) : ℝ) / (y.unitCount : ℝ) / 2 ^ 149) := by
    rw [toReal, toReal, signed_div, Nat.shiftLeft_eq]
    push_cast
    congr 1
    rw [Format.unitBits_single]
    field_simp
  rw [hvalue]
  exact rounded_nearest _ _ hpos

/-! ## Short computations -/

/-- What rounding changes of a result that is no larger than sixteen. -/
noncomputable def roundoff : ℝ := 1 / 2 ^ 21

theorem roundoff_eq : roundoff = 1 / 2097152 := by norm_num [roundoff]

theorem roundoff_pos : 0 < roundoff := by norm_num [roundoff]

theorem Rounded.near (h : Rounded x v) (hv : |v| ≤ 16) : Near roundoff x v := by
  have hnear := h 4 (by norm_num) (hv.trans (by norm_num))
  exact hnear.mono (by norm_num [roundoff])

/-- The root of a number is the root of its units on the finer scale. -/
theorem sqrt_toReal (hsign : x.negative = false) :
    √x.toReal = √((x.unitCount <<< Format.single.unitBits : Nat) : ℝ) / 2 ^ 149 := by
  have hsquare : x.toReal = ((x.unitCount <<< Format.single.unitBits : Nat) : ℝ) / (2 ^ 149) ^ 2 := by
    rw [toReal, hsign, signed, if_neg Bool.false_ne_true, Nat.shiftLeft_eq]
    push_cast
    rw [Format.unitBits_single]
    field_simp
  rw [hsquare, Real.sqrt_div' _ (by positivity), Real.sqrt_sq (by positivity)]

/-- What is rounded to the root of a positive number is the root of its units, cut to a half. -/
theorem exists_rounded_sqrt (hx : x.isFinite = true) (hzero : x.isZero = false)
    (hsign : x.negative = false) :
    ∃ r : ℝ, |r - √((x.unitCount <<< Format.single.unitBits : Nat) : ℝ)| ≤ 1 ∧
      Rounded x.sqrt (r / 2 ^ 149) := by
  have hbelow := Real.nat_sqrt_le_real_sqrt (a := x.unitCount <<< Format.single.unitBits)
  have habove := Real.real_sqrt_lt_nat_sqrt_succ (a := x.unitCount <<< Format.single.unitBits)
  simp only [sqrt, isNaN_of_isFinite hx, isInfinite_of_isFinite hx, hzero, hsign, Bool.or_self,
    Bool.false_eq_true, if_false]
  generalize x.unitCount <<< Format.single.unitBits = square at hbelow habove ⊢
  split
  · refine ⟨square.sqrt, by rw [abs_le]; constructor <;> linarith, ?_⟩
    have hrounded := rounded_nearest false square.sqrt Nat.one_pos
    rwa [Nat.cast_one, div_one] at hrounded
  · refine ⟨((2 * square.sqrt + 1 : Nat) : ℝ) / (2 : Nat), ?_, rounded_nearest false _ Nat.two_pos⟩
    push_cast
    rw [abs_le]
    constructor <;> linarith

theorem near_sqrt (hx : x.isFinite = true) (hnonneg : 0 ≤ x.toReal) (hle : x.toReal ≤ 128) :
    Near (2 * roundoff) x.sqrt (√x.toReal) := by
  by_cases hzero : x.isZero = true
  · have hsqrt : x.sqrt = x := by simp [sqrt, hzero]
    have hnone := toReal_of_isZero hzero
    rw [hsqrt, hnone, Real.sqrt_zero]
    exact ⟨hx, by simp [hnone, roundoff_pos.le]⟩
  rw [Bool.not_eq_true] at hzero
  have hsign : x.negative = false := by
    refine Bool.eq_false_iff.mpr fun hneg => ?_
    have hle : x.toReal ≤ 0 := by
      rw [toReal, hneg, signed, if_pos rfl, neg_nonpos]
      positivity
    rw [isZero_of_toReal (le_antisymm hle hnonneg)] at hzero
    cases hzero
  obtain ⟨r, hr, hrounded⟩ := exists_rounded_sqrt hx hzero hsign
  have hnext : |r / 2 ^ 149 - √x.toReal| ≤ roundoff := by
    rw [sqrt_toReal hsign, ← sub_div, abs_div, abs_of_pos (by positivity : (0 : ℝ) < 2 ^ 149)]
    exact (div_le_div_of_nonneg_right hr (by positivity)).trans (by norm_num [roundoff])
  have hsize : |r / 2 ^ 149| ≤ 16 := by
    have htwelve : √x.toReal ≤ 12 := Real.sqrt_le_iff.mpr ⟨by norm_num, by linarith⟩
    have hroot := Real.sqrt_nonneg x.toReal
    have hsmall : roundoff ≤ 1 := by norm_num [roundoff]
    rw [abs_le] at hnext ⊢
    constructor <;> linarith
  exact ((hrounded.near hsize).trans hnext).mono (by linarith)

variable {w δ ε : ℝ}

theorem Near.abs_le (h : Near δ x v) : |x.toReal| ≤ |v| + δ := by
  have := abs_sub_abs_le_abs_sub x.toReal v
  linarith [h.error]

theorem Near.add (hx : Near δ x v) (hy : Near ε y w) (h : |v + w| + δ + ε ≤ 16) :
    Near (δ + ε + roundoff) (x.add y) (v + w) := by
  have herror : |x.toReal + y.toReal - (v + w)| ≤ δ + ε := by
    rw [add_sub_add_comm]
    exact (abs_add_le _ _).trans (add_le_add hx.error hy.error)
  have hsize : |x.toReal + y.toReal| ≤ 16 := by
    have := abs_sub_abs_le_abs_sub (x.toReal + y.toReal) (v + w)
    linarith
  have hnear := ((rounded_add hx.isFinite hy.isFinite).near hsize).trans herror
  exact hnear.mono (by linarith)

theorem Near.neg (h : Near δ x v) : Near δ x.neg (-v) :=
  ⟨h.isFinite, by rw [toReal_neg, neg_sub_neg, abs_sub_comm]; exact h.error⟩

theorem Near.sub (hx : Near δ x v) (hy : Near ε y w) (h : |v - w| + δ + ε ≤ 16) :
    Near (δ + ε + roundoff) (x.sub y) (v - w) := by
  rw [sub_eq_add_neg (isNaN_of_isFinite hx.isFinite) (isNaN_of_isFinite hy.isFinite)]
  have hvalue : v - w = v + -w := by ring
  rw [hvalue] at h ⊢
  exact hx.add hy.neg h

theorem Near.mul {a b : ℝ} (hx : Near δ x v) (hy : Near ε y w) (hv : |v| ≤ a) (hw : |w| + ε ≤ b)
    (hab : (a + δ) * b ≤ 16) : Near (δ * b + a * ε + roundoff) (x.mul y) (v * w) := by
  have hδ : 0 ≤ δ := (abs_nonneg _).trans hx.error
  have hyb : |y.toReal| ≤ b := hy.abs_le.trans hw
  have herror : |x.toReal * y.toReal - v * w| ≤ δ * b + a * ε := by
    calc |x.toReal * y.toReal - v * w|
        = |(x.toReal - v) * y.toReal + v * (y.toReal - w)| := by congr 1; ring
      _ ≤ |(x.toReal - v)| * |y.toReal| + |v| * |y.toReal - w| := by
        rw [← abs_mul, ← abs_mul]
        exact abs_add_le _ _
      _ ≤ δ * b + a * ε := by
        have ha := (abs_nonneg v).trans hv
        exact add_le_add (mul_le_mul hx.error hyb (abs_nonneg _) hδ)
          (mul_le_mul hv hy.error (abs_nonneg _) ha)
  have hsize : |x.toReal * y.toReal| ≤ 16 := by
    rw [abs_mul]
    have hxa : |x.toReal| ≤ a + δ := hx.abs_le.trans (by linarith)
    exact (mul_le_mul hxa hyb (abs_nonneg _) ((abs_nonneg _).trans hxa)).trans hab
  have hnear := ((rounded_mul hx.isFinite hy.isFinite).near hsize).trans herror
  exact hnear.mono (by linarith)

/-- A sum of few terms is off by what its terms are off and one rounding for each. -/
theorem near_sum {n : Nat} {term : Fin n → F32} {r : Fin n → ℝ} {c : ℝ}
    (hterm : ∀ i, Near δ (term i) (r i)) (hsize : ∀ i, |r i| ≤ c)
    (hroom : n * (c + δ + roundoff) ≤ 16) :
    Near (n * (δ + roundoff)) (Scalar.sum term) (∑ i, r i) := by
  have hfold (l : List (Fin n)) : ∀ (s : F32) (v σ : ℝ), Near σ s v →
      |v| + σ + l.length * (c + δ + roundoff) ≤ 16 →
      Near (σ + l.length * (δ + roundoff)) (l.foldl (fun s i => s + term i) s) (v + (l.map r).sum) := by
    induction l with
    | nil => 
      intro s v σ hs _
      simpa using hs
    | cons i l ih =>
      intro s v σ hs hroom
      rw [List.length_cons, Nat.cast_succ] at hroom
      have hc := hsize i
      have hpos := roundoff_pos
      have hδ : 0 ≤ δ := (abs_nonneg _).trans (hterm i).error
      have hstep : Near (σ + δ + roundoff) (s + term i) (v + r i) := hs.add (hterm i) (by
        have := abs_add_le v (r i)
        have : 0 ≤ (l.length : ℝ) * (c + δ + roundoff) := by
          have := (abs_nonneg _).trans hc
          positivity
        linarith)
      have hrest := ih _ _ _ hstep (by
        have := abs_add_le v (r i)
        linarith)
      rw [List.foldl_cons, List.map_cons, List.sum_cons, List.length_cons, ← add_assoc]
      refine hrest.mono (le_of_eq ?_)
      push_cast
      ring
  have hsum := hfold (List.finRange n) 0 0 0 near_zero (by simpa using hroom)
  rw [List.length_finRange, zero_add, zero_add, ← Fin.sum_univ_def] at hsum
  exact hsum

end Binary

end SceneEngine
