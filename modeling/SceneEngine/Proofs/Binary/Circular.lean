/-
Sine and cosine come close to those of one angle.

The series is summed in whole numbers, and every term is cut off twice on its way to the next.
What a term is off by at most doubles from one to the next (`abs_alternatingTerms_sub`), which
over all the terms is still far below the last place that is kept; and what the series leaves out
is smaller than that again (`abs_sin_sub`, `abs_cos_sub`). So at the angle left over the results
are the sine and the cosine, and the quarter turns taken off say which angle has them
(`exists_angle_circular`).

Nothing is said of which angle that is: a matrix that turns by the results turns, and that is
what is asked of it.
-/
import Mathlib.Analysis.Complex.ExponentialBounds
import Mathlib.Analysis.Real.Pi.Bounds
import SceneEngine.Proofs.Binary.Error

namespace SceneEngine

/-! ## What the series leaves out -/

section Series

open Finset

/-- Terms of the cosine (`j = 0`) or of the sine (`j = 1`) of `r`. -/
noncomputable def alternatingSeries (r : ℝ) (terms j : ℕ) : ℝ :=
  ∑ i ∈ range terms, (-1) ^ i * (r ^ (j + 2 * i) / (j + 2 * i).factorial)

theorem alternatingSeries_succ (r : ℝ) (terms j : ℕ) : alternatingSeries r (terms + 1) j =
    r ^ j / j.factorial - alternatingSeries r terms (j + 2) := by
  rw [alternatingSeries, sum_range_succ', alternatingSeries, sub_eq_add_neg, ← sum_neg_distrib, add_comm]
  congr 1
  · simp
  · refine sum_congr rfl fun i _ => ?_
    rw [pow_succ, show j + 2 * (i + 1) = j + 2 + 2 * i by ring]
    ring

/-- The terms of the cosine and of the sine are those of the exponential. -/
theorem sum_exp_eq (r : ℝ) (terms : ℕ) :
    ∑ m ∈ range (2 * terms), (r * Complex.I) ^ m / (m.factorial : ℂ) =
      (alternatingSeries r terms 0 : ℂ) + alternatingSeries r terms 1 * Complex.I := by
  induction terms with
  | zero => simp [alternatingSeries]
  | succ k ih =>
    have heven : (r * Complex.I) ^ (2 * k) = (-1) ^ k * (r : ℂ) ^ (2 * k) := by
      rw [mul_pow, pow_mul Complex.I, Complex.I_sq, mul_comm]
    have hodd : (r * Complex.I) ^ (2 * k + 1) = (-1) ^ k * (r : ℂ) ^ (2 * k + 1) * Complex.I := by
      rw [pow_succ, heven, pow_succ]
      ring
    rw [show 2 * (k + 1) = 2 * k + 1 + 1 by ring, sum_range_succ, sum_range_succ, ih, heven, hodd]
    simp only [alternatingSeries, sum_range_succ, Nat.zero_add, Nat.add_comm 1]
    push_cast
    ring

theorem norm_exp_sub {r : ℝ} (hr : 0 ≤ r) (hle : r ≤ 2) :
    ‖Complex.exp (r * Complex.I) -
      ((alternatingSeries r 72 0 : ℂ) + alternatingSeries r 72 1 * Complex.I)‖ ≤
      1 / 2 ^ 61 := by
  have hnorm : ‖(r : ℂ) * Complex.I‖ = r := by
    rw [norm_mul, Complex.norm_I, mul_one, Complex.norm_of_nonneg hr]
  have hbound := Complex.exp_bound' (x := r * Complex.I) (n := 2 * 72) (by
    rw [hnorm]
    norm_num
    linarith)
  rw [sum_exp_eq, hnorm] at hbound
  refine hbound.trans ?_
  calc r ^ (2 * 72) / (2 * 72).factorial * 2 ≤ 2 ^ (2 * 72) / (2 * 72).factorial * 2 := by gcongr
    _ ≤ 1 / 2 ^ 61 := by norm_num [Nat.factorial]

theorem abs_cos_sub {r : ℝ} (hr : 0 ≤ r) (hle : r ≤ 2) :
    |alternatingSeries r 72 0 - Real.cos r| ≤ 1 / 2 ^ 61 := by
  have h := (Complex.abs_re_le_norm _).trans (norm_exp_sub hr hle)
  rw [abs_sub_comm]
  simpa [Complex.exp_ofReal_mul_I_re] using h

theorem abs_sin_sub {r : ℝ} (hr : 0 ≤ r) (hle : r ≤ 2) :
    |alternatingSeries r 72 1 - Real.sin r| ≤ 1 / 2 ^ 61 := by
  have h := (Complex.abs_im_le_norm _).trans (norm_exp_sub hr hle)
  rw [abs_sub_comm]
  simpa [Complex.exp_ofReal_mul_I_im] using h

end Series

/-! ## What the terms are off by -/

namespace FixedPoint

variable {bits r : ℕ}

theorem div_bounds (m : ℕ) {n : ℕ} (hn : 0 < n) :
    (m : ℝ) / n - 1 ≤ (m / n : ℕ) ∧ ((m / n : ℕ) : ℝ) ≤ m / n := by
  have hpos : (0 : ℝ) < n := Nat.cast_pos.mpr hn
  have hlt : (m : ℝ) < n * ((m / n : ℕ) + 1) := by exact_mod_cast Nat.lt_mul_div_succ m hn
  refine ⟨?_, Nat.cast_div_le⟩
  rw [sub_le_iff_le_add, div_le_iff₀ hpos]
  linarith

theorem term_le {t : ℝ} (ht : 0 ≤ t) (hle : t ≤ 2) (j : ℕ) : t ^ j / j.factorial ≤ 8 := by
  calc t ^ j / j.factorial ≤ Real.exp t := Real.pow_div_factorial_le_exp t ht j
    _ ≤ Real.exp 1 * Real.exp 1 := by
      rw [← Real.exp_add]
      exact Real.exp_le_exp.mpr (by linarith)
    _ ≤ 8 := by nlinarith [Real.exp_one_lt_d9, Real.exp_pos 1]

/-- A term `a` that is off by `e`, times a square `b` that is off by one, both on the scale `p`. -/
theorem abs_product_sub {p a b t c e : ℝ} (hp : 0 < p) (hb : 0 ≤ b) (ht : t ≤ 4) (hc : 0 ≤ c)
    (hc' : c ≤ 8) (ha : |a - p * c| ≤ e) (hlow : p * t - 1 ≤ b) (hhigh : b ≤ p * t) :
    |a * b / p - p * c * t| ≤ 4 * e + 8 := by
  have hquotient : |b / p| ≤ 4 := by
    rw [abs_of_nonneg (by positivity), div_le_iff₀ hp]
    calc b ≤ p * t := hhigh
      _ ≤ p * 4 := mul_le_mul_of_nonneg_left ht hp.le
      _ = 4 * p := mul_comm p 4
  have hrest : |b - p * t| ≤ 1 := by
    rw [abs_le]
    constructor <;> linarith
  calc |a * b / p - p * c * t| = |(a - p * c) * (b / p) + c * (b - p * t)| := by
        congr 1
        field_simp
        ring
    _ ≤ |a - p * c| * |b / p| + |c| * |b - p * t| := by
        rw [← abs_mul, ← abs_mul]
        exact abs_add_le _ _
    _ ≤ e * 4 + 8 * 1 := by
        have he : 0 ≤ e := (abs_nonneg _).trans ha
        rw [abs_of_nonneg hc]
        gcongr
    _ = 4 * e + 8 := by ring

theorem abs_div_sub_div {a b d e : ℝ} (hd : 2 ≤ d) (he : 0 ≤ e) (h : |a - b| ≤ 4 * e + 9) :
    |a / d - b / d| ≤ 2 * e + 5 := by
  have hpos : 0 < d := two_pos.trans_le hd
  rw [← sub_div, abs_div, abs_of_pos hpos, div_le_iff₀ hpos]
  calc |a - b| ≤ (2 * e + 5) * 2 := by linarith
    _ ≤ (2 * e + 5) * d := mul_le_mul_of_nonneg_left hd (by linarith)

/-- A term that is off by `e` is followed by one that is off by little more than twice that. -/
theorem abs_next_sub {term j : ℕ} {e : ℝ} (hr : (r : ℝ) / 2 ^ bits ≤ 2)
    (h : |(term : ℝ) - 2 ^ bits * ((r / 2 ^ bits) ^ j / j.factorial)| ≤ e) :
    |(((term * ((r * r) >>> bits)) >>> bits / ((j + 1) * (j + 1 + 1)) : ℕ) : ℝ) -
      2 ^ bits * ((r / 2 ^ bits) ^ (j + 2) / (j + 2).factorial)| ≤ 2 * e + 6 := by
  simp only [Nat.shiftRight_eq_div_pow]
  have hsquare := div_bounds (r * r) (Nat.two_pow_pos bits)
  generalize r * r / 2 ^ bits = square at hsquare ⊢
  have hscaled := div_bounds (term * square) (Nat.two_pow_pos bits)
  generalize term * square / 2 ^ bits = scaled at hscaled ⊢
  have hnext := div_bounds scaled (show 0 < (j + 1) * (j + 1 + 1) by positivity)
  generalize scaled / ((j + 1) * (j + 1 + 1)) = next at hnext ⊢
  push_cast at hsquare hscaled hnext
  have hwhole : (r : ℝ) * r / 2 ^ bits = 2 ^ bits * (r / 2 ^ bits) ^ 2 := by field_simp
  rw [hwhole] at hsquare
  have hratio : (0 : ℝ) ≤ r / 2 ^ bits := by positivity
  have hfour : ((r : ℝ) / 2 ^ bits) ^ 2 ≤ 4 := (pow_le_pow_left₀ hratio hr 2).trans (by norm_num)
  have hproduct := abs_product_sub (p := 2 ^ bits) (by positivity) (Nat.cast_nonneg square) hfour
    (by positivity)
    (term_le hratio hr j) h hsquare.1 hsquare.2
  have htarget : 2 ^ bits * (((r : ℝ) / 2 ^ bits) ^ (j + 2) / (j + 2).factorial) =
      2 ^ bits * ((r / 2 ^ bits) ^ j / j.factorial) * (r / 2 ^ bits) ^ 2 / ((j + 1) * (j + 1 + 1)) := by
    rw [pow_add, Nat.factorial_succ, Nat.factorial_succ]
    generalize ((r : ℝ) / 2 ^ bits) ^ j = a
    push_cast
    field_simp
  rw [htarget]
  generalize 2 ^ bits * (((r : ℝ) / 2 ^ bits) ^ j / j.factorial) * (r / 2 ^ bits) ^ 2 =
    goal at hproduct ⊢
  have hcut : |scaled - goal| ≤ 4 * e + 9 := by
    rw [abs_le] at hproduct ⊢
    constructor <;> linarith only [hproduct.1, hproduct.2, hscaled.1, hscaled.2]
  have htwo : (2 : ℝ) ≤ (j + 1) * (j + 1 + 1) := by
    have hj : (0 : ℝ) ≤ j := Nat.cast_nonneg j
    calc (2 : ℝ) = 1 * 2 := (one_mul 2).symm
      _ ≤ (j + 1) * (j + 1 + 1) := mul_le_mul (by linarith only [hj]) (by linarith only [hj]) zero_le_two
        (by linarith only [hj])
  have hdivided := abs_div_sub_div htwo ((abs_nonneg _).trans h) hcut
  rw [abs_le] at hdivided ⊢
  constructor <;> linarith only [hdivided.1, hdivided.2, hnext.1, hnext.2]

theorem abs_alternatingTerms_sub (hr : (r : ℝ) / 2 ^ bits ≤ 2) (terms : ℕ) : ∀ {term j : ℕ} {e : ℝ},
    |(term : ℝ) - 2 ^ bits * ((r / 2 ^ bits) ^ j / j.factorial)| ≤ e →
    |(alternatingTerms bits ((r * r) >>> bits) terms term (j + 1) : ℝ) -
      2 ^ bits * alternatingSeries (r / 2 ^ bits) terms j| ≤ (e + 6) * (2 ^ terms - 1) := by
  induction terms with
  | zero => simp [alternatingTerms, alternatingSeries]
  | succ terms ih =>
    intro term j e h
    have hnext := ih (abs_next_sub hr h)
    rw [alternatingTerms, alternatingSeries_succ]
    push_cast
    rw [mul_sub, sub_sub_sub_comm]
    refine (abs_sub _ _).trans ((add_le_add h hnext).trans ?_)
    rw [pow_succ]
    linarith

/-- Off a value that is not much below zero, a sum is not the farther off for being kept at or
above zero. -/
theorem abs_toNat_sub (i : ℤ) {v δ η : ℝ} (h : |(i : ℝ) - v| ≤ δ) (hv : -η ≤ v) (hη : 0 ≤ η) :
    |(i.toNat : ℝ) - v| ≤ δ + η := by
  have hδ : 0 ≤ δ := (abs_nonneg _).trans h
  rcases le_total 0 i with hi | hi
  · have hcast : ((i.toNat : ℤ) : ℝ) = i := by rw [Int.toNat_of_nonneg hi]
    rw [Int.cast_natCast] at hcast
    rw [hcast]
    linarith
  · have hi' : (i : ℝ) ≤ 0 := Int.cast_nonpos.mpr hi
    rw [Int.toNat_of_nonpos hi, Nat.cast_zero]
    rw [abs_le] at h ⊢
    constructor <;> linarith

/-- What is kept of an angle of less than a quarter turn is at most this. -/
def quarterBound : ℕ := 35029928642640830393866006467768181827195396

theorem quarterBound_le : (quarterBound : ℝ) / 2 ^ 144 ≤ Real.pi / 2 + 1 / 2 ^ 61 := by
  have := Real.pi_gt_d20
  rw [quarterBound, div_le_iff₀ (by positivity)]
  norm_num at this ⊢
  linarith

theorem ratio_le {r : ℕ} (hr : r ≤ quarterBound) : (r : ℝ) / 2 ^ 144 ≤ Real.pi / 2 + 1 / 2 ^ 61 := by
  have : (r : ℝ) / 2 ^ 144 ≤ quarterBound / 2 ^ 144 := by gcongr
  exact this.trans quarterBound_le

theorem ratio_le_two {r : ℕ} (hr : r ≤ quarterBound) : (r : ℝ) / 2 ^ 144 ≤ 2 := by
  have := ratio_le hr
  have := Real.pi_lt_d2
  norm_num at *
  linarith

/-- What the series comes close to, the sum in whole numbers comes close to. -/
theorem abs_sum_sub {r term j : ℕ} {v : ℝ} (hr : r ≤ quarterBound)
    (hterm : (term : ℝ) = 2 ^ 144 * ((r / 2 ^ 144) ^ j / j.factorial))
    (hseries : |alternatingSeries (r / 2 ^ 144) 72 j - v| ≤ 1 / 2 ^ 61) (hv : -(1 / 2 ^ 61) ≤ v) :
    |((alternatingTerms 144 ((r * r) >>> 144) 72 term (j + 1)).toNat : ℝ) / 2 ^ 144 - v| ≤
      1 / 2 ^ 59 := by
  have hsum := abs_alternatingTerms_sub (e := 0) (ratio_le_two hr) 72 (by rw [hterm, sub_self, abs_zero])
  generalize alternatingTerms 144 ((r * r) >>> 144) 72 term (j + 1) = i at hsum ⊢
  have hscaled : |(i : ℝ) - 2 ^ 144 * v| ≤ 6 * 2 ^ 72 + 2 ^ 83 := by
    refine (abs_sub_le _ (2 ^ 144 * alternatingSeries (r / 2 ^ 144) 72 j) _).trans ?_
    rw [← mul_sub, abs_mul]
    refine add_le_add (hsum.trans (by norm_num)) ?_
    rw [abs_of_pos (by positivity)]
    calc (2 : ℝ) ^ 144 * |alternatingSeries (r / 2 ^ 144) 72 j - v| ≤ 2 ^ 144 * (1 / 2 ^ 61) := by gcongr
      _ = 2 ^ 83 := by norm_num
  have hlow : -(2 ^ 83) ≤ 2 ^ 144 * v := by
    norm_num at hv ⊢
    linarith
  have hkept := abs_toNat_sub i hscaled hlow (by positivity)
  have hdivide : (i.toNat : ℝ) / 2 ^ 144 - v = (i.toNat - 2 ^ 144 * v) / 2 ^ 144 := by
    rw [sub_div, mul_div_cancel_left₀ _ (by positivity)]
  rw [hdivide, abs_div, abs_of_pos (by positivity : (0 : ℝ) < 2 ^ 144), div_le_iff₀ (by positivity)]
  exact hkept.trans (by norm_num)

theorem abs_sine_sub {r : ℕ} (hr : r ≤ quarterBound) :
    |(sine 144 r : ℝ) / 2 ^ 144 - Real.sin (r / 2 ^ 144)| ≤ 1 / 2 ^ 59 := by
  have hpos : (0 : ℝ) ≤ r / 2 ^ 144 := by positivity
  have hsin : 0 ≤ Real.sin (r / 2 ^ 144) :=
    Real.sin_nonneg_of_nonneg_of_le_pi hpos ((ratio_le_two hr).trans Real.two_le_pi)
  have hneg : -(1 / 2 ^ 61 : ℝ) ≤ 0 := by norm_num
  exact abs_sum_sub (j := 1) hr (by field_simp; simp) (abs_sin_sub hpos (ratio_le_two hr))
    (hneg.trans hsin)

theorem abs_cosine_sub {r : ℕ} (hr : r ≤ quarterBound) :
    |(cosine 144 r : ℝ) / 2 ^ 144 - Real.cos (r / 2 ^ 144)| ≤ 1 / 2 ^ 59 := by
  have hpos : (0 : ℝ) ≤ r / 2 ^ 144 := by positivity
  have hcos : -(1 / 2 ^ 61) ≤ Real.cos (r / 2 ^ 144) := by
    have hle := ratio_le hr
    generalize (r : ℝ) / 2 ^ 144 = t at hpos hle
    rcases le_total t (Real.pi / 2) with h | h
    · have hneg : -(1 / 2 ^ 61 : ℝ) ≤ 0 := by norm_num
      exact hneg.trans (Real.cos_nonneg_of_neg_pi_div_two_le_of_le (by linarith [Real.pi_pos]) h)
    · have hsin := Real.sin_le (x := t - Real.pi / 2) (by linarith)
      rw [Real.sin_sub_pi_div_two] at hsin
      linarith
  have hone : ((1 <<< 144 : ℕ) : ℝ) = 2 ^ 144 * ((r / 2 ^ 144) ^ 0 / Nat.factorial 0) := by
    rw [Nat.one_shiftLeft, Nat.cast_pow, Nat.cast_ofNat, pow_zero, Nat.factorial_zero, Nat.cast_one,
      div_one, mul_one]
  exact abs_sum_sub hr hone (abs_cos_sub hpos (ratio_le_two hr)) hcos

end FixedPoint

/-! ## Angles -/

namespace Binary

variable {x : F32}

/-- The angle left over is less than a quarter turn, cut off after 144 bits. -/
theorem quarterTurns_le (x : F32) : x.quarterTurns.2 ≤ FixedPoint.quarterBound := by
  have hpos : 0 < FixedPoint.halfPi 336 := by decide +kernel
  have hbound : FixedPoint.halfPi 336 / 2 ^ 192 ≤ FixedPoint.quarterBound := by decide +kernel
  have hbits :
      fractionDigits Format.single + (1 <<< (Format.single.exponentBits - 1)) + 64 = 336 := by decide
  have hdropped : 336 - fractionDigits Format.single = 192 := by decide
  simp only [quarterTurns, hbits, hdropped]
  generalize FixedPoint.halfPi 336 = quarter at hpos hbound ⊢
  rw [Nat.shiftRight_eq_div_pow _ 192]
  exact Nat.le_trans (Nat.div_le_div_right (Nat.le_of_lt (Nat.mod_lt _ hpos))) hbound

/-- The signs and sizes of the sine and the cosine of a finite angle are those of some angle. -/
theorem exists_angle_circular (x : F32) : ∃ θ : ℝ,
    |signed x.circular.1.1 (x.circular.1.2 / 2 ^ 144) - Real.sin θ| ≤ 1 / 2 ^ 59 ∧
    |signed x.circular.2.1 (x.circular.2.2 / 2 ^ 144) - Real.cos θ| ≤ 1 / 2 ^ 59 := by
  have hsin := FixedPoint.abs_sine_sub x.quarterTurns_le
  have hcos := FixedPoint.abs_cosine_sub x.quarterTurns_le
  have hneg (a b : ℝ) : |-a - -b| = |a - b| := by rw [neg_sub_neg, abs_sub_comm]
  have hplus (t : ℝ) : signed false t = t := rfl
  have hminus (t : ℝ) : signed true t = -t := rfl
  simp only [circular, show fractionDigits Format.single = 144 from by decide]
  generalize x.quarterTurns = turned at hsin hcos ⊢
  generalize FixedPoint.sine 144 turned.2 = s at hsin ⊢
  generalize FixedPoint.cosine 144 turned.2 = c at hcos ⊢
  generalize (turned.2 : ℝ) / 2 ^ 144 = r at hsin hcos
  split
  · exact ⟨r, hsin, hcos⟩
  · refine ⟨r + Real.pi / 2, ?_, ?_⟩
    · rwa [hplus, Real.sin_add_pi_div_two]
    · rwa [hminus, Real.cos_add_pi_div_two, hneg]
  · refine ⟨r + Real.pi, ?_, ?_⟩
    · rwa [hminus, Real.sin_add_pi, hneg]
    · rwa [hminus, Real.cos_add_pi, hneg]
  · refine ⟨r - Real.pi / 2, ?_, ?_⟩
    · rwa [hminus, Real.sin_sub_pi_div_two, hneg]
    · rwa [hplus, Real.cos_sub_pi_div_two]

/-- A fraction with 144 bits after the point is rounded once. -/
theorem near_nearest_fraction (negative : Bool) {n : ℕ} {v : ℝ} (hv : |v| ≤ 1)
    (h : |signed negative (n / 2 ^ 144) - v| ≤ 1 / 2 ^ 59) :
    Near (2 * roundoff) (nearest negative (n <<< Format.single.unitBits) (1 <<< 144) : F32) v := by
  have hrounded := rounded_nearest negative (n <<< Format.single.unitBits) (Format.one_shiftLeft_pos 144)
  have hvalue : ((n <<< Format.single.unitBits : ℕ) : ℝ) / ((1 <<< 144 : ℕ) : ℝ) / 2 ^ 149 =
      n / 2 ^ 144 := by
    rw [Nat.shiftLeft_eq, Nat.one_shiftLeft, Format.unitBits_single]
    rw [Nat.cast_mul, Nat.cast_pow, Nat.cast_pow, Nat.cast_ofNat, div_right_comm,
      mul_div_cancel_right₀ _ (by positivity)]
  rw [hvalue] at hrounded
  have hsmall : 1 / 2 ^ 59 ≤ roundoff := by norm_num [roundoff]
  have hsize : |signed negative (n / 2 ^ 144)| ≤ 16 := by
    have := abs_sub_abs_le_abs_sub (signed negative (n / 2 ^ 144)) v
    have : (1 : ℝ) / 2 ^ 59 ≤ 1 := by norm_num
    linarith
  exact ((hrounded.near hsize).trans h).mono (by linarith)

/-- The sine of a tiny angle is the angle itself, and no angle at all is close enough. -/
theorem near_tiny_angle (hx : x.isFinite = true) (htiny : x.isTinyAngle = true) :
    Near (2 * roundoff) x.sin (Real.sin 0) ∧ Near (2 * roundoff) x.cos (Real.cos 0) := by
  have hsmall : |x.toReal| ≤ roundoff := by
    have hcount : x.unitCount < 1 <<< (Format.single.unitBits - Format.single.precision) :=
      of_decide_eq_true htiny
    have hcount' : (x.unitCount : ℝ) ≤ 2 ^ 125 := by
      rw [Nat.one_shiftLeft] at hcount
      exact_mod_cast Nat.le_of_lt hcount
    rw [abs_toReal, Format.unitBits_single, div_le_iff₀ (by positivity)]
    exact hcount'.trans (by norm_num [roundoff])
  simp only [sin, cos, isNaN_of_isFinite hx, isInfinite_of_isFinite hx, htiny, Bool.false_eq_true,
    if_false, if_true]
  refine ⟨⟨hx, ?_⟩, ⟨by decide, ?_⟩⟩
  · rw [Real.sin_zero, sub_zero]
    linarith [roundoff_pos]
  · rw [toReal_one, Real.cos_zero, sub_self, abs_zero]
    linarith [roundoff_pos]

/-- There is an angle whose sine and cosine the computed ones come close to. -/
theorem exists_angle (hx : x.isFinite = true) : ∃ θ : ℝ,
    Near (2 * roundoff) x.sin (Real.sin θ) ∧ Near (2 * roundoff) x.cos (Real.cos θ) := by
  cases htiny : x.isTinyAngle with
  | true => exact ⟨0, near_tiny_angle hx htiny⟩
  | false =>
    obtain ⟨θ, hsin, hcos⟩ := x.exists_angle_circular
    simp only [sin, cos, isNaN_of_isFinite hx, isInfinite_of_isFinite hx, htiny, Bool.false_eq_true,
      if_false, show fractionDigits Format.single = 144 from by decide]
    generalize x.circular = shape at hsin hcos ⊢
    have hfine := near_nearest_fraction shape.2.1 (Real.abs_cos_le_one θ) hcos
    cases hsign : x.negative with
    | false =>
      refine ⟨θ, ?_, hfine⟩
      rw [Bool.false_bne]
      exact near_nearest_fraction _ (Real.abs_sin_le_one θ) hsin
    | true =>
      refine ⟨-θ, near_nearest_fraction _ (Real.abs_sin_le_one _) ?_, by rwa [Real.cos_neg]⟩
      have hflip : signed (true != shape.1.1) (shape.1.2 / 2 ^ 144) =
          -signed shape.1.1 (shape.1.2 / 2 ^ 144) := by
        cases shape.1.1 <;> simp [signed]
      rwa [hflip, Real.sin_neg, neg_sub_neg, abs_sub_comm]

end Binary

end SceneEngine
