/-
Vectors in single precision, near vectors of the real space.

The library is written once for all scalars, so what it computes in single precision can be held
against what the same definitions give for the real numbers. Dot and cross products of short
vectors are off by a few times what the vectors are off (`Near.dot`, `near_cross`). A vector that is
neither long nor very short is not taken for zero: it can be normalized, and what comes out is the
direction of the real vector to one rounding of each coordinate (`exists_normalize`).

That a vector is not short is read off a unit vector it reaches along (`sq_dot_le`), and that is
kept when it is moved a little (`dot_ge_of_close`).
-/
import SceneEngine.Proofs.Binary.Error
import SceneEngine.Proofs.Exact.Reals
import SceneEngine.Proofs.Vec

namespace SceneEngine

open scoped Exact Matrix
open Binary (roundoff roundoff_eq roundoff_pos)

/-- A value is no zero to the tolerance of single precision when it is a thousandth or more. -/
theorem Tolerance.isZero_single {x : F32} (hx : x.isFinite = true) (h : 1 / 1024 ≤ |x.toReal|) :
    Tolerance.single.isZero x = false := by
  refine decide_eq_false fun hle => ?_
  obtain ⟨-, -, hcount⟩ := Binary.widen_exact hx
  have hunits := Binary.units_le (Binary.le_iff.mp hle).2.2
  have hbound : Tolerance.single.absolute.units < 2 ^ 139 * Binary.finerUnits := by decide +kernel
  have hvalue : (Scalar.abs (widen x : F64)).units = x.unitCount * Binary.finerUnits := by
    have habs : (Scalar.abs (widen x : F64)).units = (x.convert : F64).unitCount := rfl
    rw [habs, hcount, Nat.cast_mul]
  have hlarge : 2 ^ 139 ≤ x.unitCount := by
    rw [Binary.abs_toReal, Format.unitBits_single, le_div_iff₀ (by positivity)] at h
    have hreal : (2 : ℝ) ^ 139 ≤ x.unitCount := le_trans (by norm_num) h
    exact_mod_cast hreal
  have hscaled : 2 ^ 139 * (Binary.finerUnits : ℤ) ≤ x.unitCount * Binary.finerUnits := by
    exact_mod_cast Nat.mul_le_mul_right Binary.finerUnits hlarge
  rw [hvalue] at hunits
  omega

namespace Vec

/-- Every coordinate is finite. -/
def Finite {f : Format} {n : Nat} (v : Vec (Binary f) n) : Prop := ∀ i : Fin n, v[i].isFinite = true

instance {f : Format} {n : Nat} (v : Vec (Binary f) n) : Decidable v.Finite :=
  inferInstanceAs (Decidable (∀ i : Fin n, v[i].isFinite = true))

/-! ## Real vectors -/

/-- No coordinate is larger than one. -/
def Small {n : Nat} (w : Vec ℝ n) : Prop := ∀ i : Fin n, |w[i]| ≤ 1

theorem small_of3 {a b c : ℝ} (ha : |a| ≤ 1) (hb : |b| ≤ 1) (hc : |c| ≤ 1) : (of3 a b c).Small := by
  intro i
  fin_cases i
  · exact ha
  · exact hb
  · exact hc

section Reals

variable {u v w n : Vec ℝ 3} {c : ℝ}

theorem dot_self_le (h : ∀ i : Fin 3, |w[i]| ≤ c) : w.dot w ≤ 3 * c ^ 2 := by
  have hdot : w.dot w = ∑ i : Fin 3, w[i] * w[i] := Exact.sum_eq _
  have hsum := Finset.sum_le_card_nsmul Finset.univ (fun i : Fin 3 => w[i] * w[i]) (c ^ 2) fun i _ => by
    rw [← pow_two]
    exact sq_le_sq.mpr ((h i).trans (le_abs_self c))
  rw [hdot]
  simpa using hsum

theorem sq_le_dot_self (w : Vec ℝ 3) (i : Fin 3) : w[i] ^ 2 ≤ w.dot w := by
  have hdot : w.dot w = ∑ i : Fin 3, w[i] * w[i] := Exact.sum_eq _
  rw [hdot, pow_two]
  exact Finset.single_le_sum (f := fun i : Fin 3 => w[i] * w[i]) (fun i _ => mul_self_nonneg _)
    (Finset.mem_univ i)

theorem small_of_unit (h : w.dot w = 1) : w.Small := fun i => by
  rw [← sq_le_one_iff_abs_le_one, ← h]
  exact sq_le_dot_self w i

/-- A vector is at least as long as it reaches along a unit vector. -/
theorem sq_dot_le (hn : n.dot n = 1) : v.dot n ^ 2 ≤ v.dot v := by
  have hlagrange : v.dot v - v.dot n ^ 2 = (v.cross n).dot (v.cross n) := by
    rw [dot_eq] at hn
    rw [dot_eq, dot_eq, dot_eq, toFun_cross, cross_dot_cross, hn, dotProduct_comm n.toFun]
    ring
  linarith [dot_self_nonneg (v.cross n)]

/-- Along a unit vector, close vectors reach about as far. -/
theorem dot_ge_of_close (hn : n.dot n = 1) (hclose : ∀ i : Fin 3, |v[i] - w[i]| ≤ c) :
    w.dot n - 17321 / 10000 * c ≤ v.dot n := by
  have hpos : 0 ≤ c := (abs_nonneg _).trans (hclose 0)
  have hlength : (v - w).dot (v - w) ≤ 3 * c ^ 2 := dot_self_le fun i => by
    rw [getElem_sub]
    exact hclose i
  have hdiff : (v - w).dot n = v.dot n - w.dot n := by
    rw [dot_comm, dot_sub, dot_comm n v, dot_comm n w]
  have hreach : |v.dot n - w.dot n| ≤ 17321 / 10000 * c := by
    rw [← hdiff]
    exact abs_le_of_sq_le_sq (by nlinarith [sq_dot_le (v := v - w) hn]) (by positivity)
  linarith [neg_abs_le (v.dot n - w.dot n)]

/-- To a unit vector at right angles to `n`, two vectors stand aside as far from one another as the
first reaches along `n`. -/
theorem cross_dot_cross_of_unit (hu : u.dot u = 1) (hun : u.dot n = 0) :
    (u.cross v).dot (u.cross n) = v.dot n := by
  rw [dot_eq] at hu hun
  rw [dot_eq, dot_eq, toFun_cross, toFun_cross, cross_dot_cross, hu, hun, one_mul, zero_mul, sub_zero]

end Reals

/-! ## Vectors near one another -/

/-- Near in every coordinate. -/
def Near {n : Nat} (δ : ℝ) (v : Vec F32 n) (w : Vec ℝ n) : Prop := ∀ i : Fin n, Binary.Near δ v[i] w[i]

/-- The real numbers the coordinates stand for. -/
noncomputable def real {n : Nat} (v : Vec F32 n) : Vec ℝ n := v.map Binary.toReal

theorem getElem_real {n : Nat} (v : Vec F32 n) (i : Fin n) : v.real[i] = v[i].toReal := getElem_ofFn _ i

variable {δ ε : ℝ}

theorem Near.real {n : Nat} {v : Vec F32 n} {w : Vec ℝ n} (h : v.Near δ w) (i : Fin n) :
    |v.real[i] - w[i]| ≤ δ := by
  rw [getElem_real]
  exact (h i).error

theorem Near.real_le {n : Nat} {v : Vec F32 n} {w : Vec ℝ n} (h : v.Near δ w) (i : Fin n) :
    |v.real[i]| ≤ |w[i]| + δ := by
  rw [getElem_real]
  exact (h i).abs_le

theorem near_of3 {x y z : F32} {a b c : ℝ} (hx : Binary.Near δ x a) (hy : Binary.Near δ y b)
    (hz : Binary.Near δ z c) : (of3 x y z).Near δ (of3 a b c) := by
  intro i
  fin_cases i
  · exact hx
  · exact hy
  · exact hz

/-- Few products of factors that are no larger than one, added up. -/
theorem near_sum_mul {n : Nat} (hn : n ≤ 4) {a b : Fin n → F32} {r s : Fin n → ℝ}
    (ha : ∀ i, Binary.Near δ (a i) (r i)) (hr : ∀ i, |r i| ≤ 1) (hb : ∀ i, Binary.Near ε (b i) (s i))
    (hs : ∀ i, |s i| ≤ 1) (hδ : δ ≤ 1 / 4) (hε : ε ≤ 1 / 4) :
    Binary.Near (n * (5 / 4 * δ + ε + 2 * roundoff)) (Scalar.sum fun i => a i * b i)
      (∑ i, r i * s i) := by
  have hround := roundoff_eq
  have hterm (i : Fin n) : Binary.Near (5 / 4 * δ + ε + roundoff) (a i * b i) (r i * s i) := by
    have hsi := hs i
    have hmul := (ha i).mul (hb i) (b := 5 / 4) (hr i) (by linarith) (by linarith)
    exact hmul.mono (by linarith)
  have hsize (i : Fin n) : |r i * s i| ≤ 1 := by
    rw [abs_mul]
    exact mul_le_one₀ (hr i) (abs_nonneg _) (hs i)
  have hroom : (n : ℝ) * (1 + (5 / 4 * δ + ε + roundoff) + roundoff) ≤ 16 := by
    have hn' : (n : ℝ) ≤ 4 := by exact_mod_cast hn
    calc (n : ℝ) * (1 + (5 / 4 * δ + ε + roundoff) + roundoff) ≤ n * 4 :=
          mul_le_mul_of_nonneg_left (by linarith) (Nat.cast_nonneg n)
      _ ≤ 16 := by linarith
  exact (Binary.near_sum hterm hsize hroom).mono (le_of_eq (by ring))

theorem Near.dot {n : Nat} (hn : n ≤ 4) {v w : Vec F32 n} {v' w' : Vec ℝ n} (hv : v.Near δ v')
    (hv' : v'.Small) (hw : w.Near ε w') (hw' : w'.Small) (hδ : δ ≤ 1 / 4) (hε : ε ≤ 1 / 4) :
    Binary.Near (n * (5 / 4 * δ + ε + 2 * roundoff)) (v.dot w) (v'.dot w') := by
  have hdot : v'.dot w' = ∑ i : Fin n, v'[i] * w'[i] := Exact.sum_eq _
  rw [hdot]
  exact near_sum_mul hn hv hv' hw hw' hδ hε

/-- One coordinate of a cross product with a vector that is taken as it is. -/
theorem near_minor {a b x y : F32} {α β : ℝ} (ha : Binary.Near (1 / 2048) a α) (hα : |α| ≤ 1)
    (hb : Binary.Near (1 / 2048) b β) (hβ : |β| ≤ 1) (hx : x.isFinite = true)
    (hx' : |x.toReal| ≤ 11 / 10)
    (hy : y.isFinite = true) (hy' : |y.toReal| ≤ 11 / 10) :
    Binary.Near (1 / 512) (a * x - b * y) (α * x.toReal - β * y.toReal) ∧
      |α * x.toReal - β * y.toReal| ≤ 11 / 5 := by
  have hround := roundoff_eq
  have hsize {r s : ℝ} (hr : |r| ≤ 1) (hs : |s| ≤ 11 / 10) : |r * s| ≤ 11 / 10 := by
    rw [abs_mul]
    calc |r| * |s| ≤ 1 * (11 / 10) := mul_le_mul hr hs (abs_nonneg s) zero_le_one
      _ = 11 / 10 := one_mul _
  have hminor : |α * x.toReal - β * y.toReal| ≤ 11 / 5 := by
    have := abs_sub (α * x.toReal) (β * y.toReal)
    linarith [hsize hα hx', hsize hβ hy']
  have hleft := ha.mul (Binary.near_self hx) (b := 11 / 10) hα (by linarith) (by norm_num)
  have hright := hb.mul (Binary.near_self hy) (b := 11 / 10) hβ (by linarith) (by norm_num)
  exact ⟨(hleft.sub hright (by linarith)).mono (by linarith), hminor⟩

theorem near_cross {u v : Vec F32 3} {w : Vec ℝ 3} (hu : u.Near (1 / 2048) w) (hw : w.Small)
    (hv : v.Finite) (hv' : ∀ i : Fin 3, |v.real[i]| ≤ 11 / 10) :
    (u.cross v).Near (1 / 512) (w.cross v.real) ∧ ∀ i : Fin 3, |(w.cross v.real)[i]| ≤ 11 / 5 := by
  have hsize (i : Fin 3) : |v[i].toReal| ≤ 11 / 10 := getElem_real v i ▸ hv' i
  have hminor (i j : Fin 3) := near_minor (hu i) (hw i) (hu j) (hw j) (hv j) (hsize j) (hv i) (hsize i)
  refine ⟨fun i => ?_, fun i => ?_⟩
  · fin_cases i
    · exact (hminor 1 2).1
    · exact (hminor 2 0).1
    · exact (hminor 0 1).1
  · fin_cases i
    · exact (hminor 1 2).2
    · exact (hminor 2 0).2
    · exact (hminor 0 1).2

/-! ## Lengths -/

variable {v : Vec F32 3} (hfin : v.Finite) (hsize : ∀ i : Fin 3, |v.real[i]| ≤ 9 / 4)
include hfin hsize

theorem near_lengthSquared : Binary.Near (6 * roundoff) v.lengthSquared (v.real.dot v.real) := by
  have hdot : v.real.dot v.real = ∑ i : Fin 3, v.real[i] * v.real[i] := Exact.sum_eq _
  have hsquare (i : Fin 3) : |v.real[i] * v.real[i]| ≤ 81 / 16 := by
    rw [abs_mul]
    calc |v.real[i]| * |v.real[i]| ≤ 9 / 4 * (9 / 4) :=
          mul_le_mul (hsize i) (hsize i) (abs_nonneg _) (by norm_num)
      _ = 81 / 16 := by norm_num
  have hterm (i : Fin 3) : Binary.Near roundoff (v[i] * v[i]) (v.real[i] * v.real[i]) := by
    have hrounded := Binary.rounded_mul (hfin i) (hfin i)
    rw [← getElem_real] at hrounded
    exact hrounded.near ((hsquare i).trans (by norm_num))
  rw [hdot]
  exact (Binary.near_sum hterm hsquare (by norm_num [roundoff])).mono (by push_cast; linarith)

variable (hlow : 1 / 1024 ≤ v.real.dot v.real)
include hlow

/-- The length of a vector that is neither long nor very short, by its square. -/
theorem length_spec : v.length.isFinite = true ∧ 1 / 128 ≤ v.length.toReal ∧
    |v.length.toReal * v.length.toReal - v.real.dot v.real| ≤ 1 / 65536 := by
  have hround := roundoff_eq
  have hhigh := dot_self_le hsize
  obtain ⟨hsum, herror⟩ := near_lengthSquared hfin hsize
  have hlength : v.length = v.lengthSquared.sqrt := by
    rw [length]
    generalize v.lengthSquared = s
    rfl
  rw [hlength]
  generalize v.lengthSquared = s at hsum herror
  generalize v.real.dot v.real = exact at hlow hhigh herror ⊢
  rw [abs_le] at herror
  have hlow' : 1 / 4096 ≤ s.toReal := by linarith only [hlow, herror.1, hround]
  have hhigh' : s.toReal ≤ 16 := by linarith only [hhigh, herror.2, hround]
  obtain ⟨hroot, hclose⟩ := Binary.near_sqrt hsum (by linarith only [hlow']) (by linarith only [hhigh'])
  have hsquare := Real.mul_self_sqrt (show 0 ≤ s.toReal by linarith only [hlow'])
  have hshort : √s.toReal ≤ 4 := Real.sqrt_le_iff.mpr ⟨by norm_num, by linarith only [hhigh']⟩
  have hlong : 1 / 64 ≤ √s.toReal := Real.le_sqrt_of_sq_le (by linarith only [hlow'])
  generalize √s.toReal = r at *
  generalize s.sqrt.toReal = l at *
  have hclose' := hclose
  rw [abs_le] at hclose'
  refine ⟨hroot, by linarith only [hlong, hclose'.1, hround], ?_⟩
  -- The squares of `l` and `r` differ by the product of what the two differ by and of their sum.
  have hsum : |l + r| ≤ 9 := by
    rw [abs_le]
    constructor <;> linarith only [hlong, hshort, hclose'.1, hclose'.2, hround]
  have hproduct : |(l - r) * (l + r)| ≤ 2 * roundoff * 9 := by
    rw [abs_mul]
    exact mul_le_mul hclose hsum (abs_nonneg _) (by linarith only [hround])
  have hsplit : (l - r) * (l + r) = l * l - r * r := by ring
  rw [hsplit, hsquare, abs_le] at hproduct
  rw [abs_le]
  constructor <;> linarith only [hproduct.1, hproduct.2, herror.1, herror.2, hround]

/-- Such a vector has a direction, which is that of the real vector but for one rounding of each
coordinate. -/
theorem exists_normalize : ∃ (u : Vec F32 3) (size : ℝ),
    v.normalize Tolerance.single = .ok u ∧ 0 < size ∧
    |size * size - v.real.dot v.real| ≤ 1 / 65536 ∧
    ∀ i : Fin 3, |v.real[i] / size| ≤ 21 / 20 ∧ Binary.Near roundoff u[i] (v.real[i] / size) := by
  obtain ⟨hfinite, hlong, hsquare⟩ := length_spec hfin hsize hlow
  have hpos : 0 < v.length.toReal := lt_of_lt_of_le (by norm_num) hlong
  have hzero : Tolerance.single.isZero v.length = false := by
    refine Tolerance.isZero_single hfinite ?_
    rw [abs_of_pos hpos]
    exact le_trans (by norm_num) hlong
  have hwide : Scalar.isFinite (widen v.length : F64) = true := (Binary.widen_exact hfinite).1
  refine ⟨v / v.length, v.length.toReal, ?_, hpos, hsquare, fun i => ?_⟩
  · simp only [normalize, hzero, hwide, Bool.not_true, Bool.or_self, Bool.false_eq_true, if_false]
  · have hratio : |v.real[i] / v.length.toReal| ≤ 21 / 20 := by
      have hcoordinate := sq_le_dot_self v.real i
      rw [abs_le] at hsquare
      rw [abs_div, abs_of_pos hpos, div_le_iff₀ hpos]
      refine abs_le_of_sq_le_sq ?_ (mul_nonneg (by norm_num) hpos.le)
      rw [mul_pow, pow_two v.length.toReal]
      linarith
    have hrounded := Binary.rounded_div (hfin i) hfinite hpos.ne'
    rw [← getElem_real] at hrounded
    rw [getElem_div]
    exact ⟨hratio, hrounded.near (hratio.trans (by norm_num))⟩

end Vec

end SceneEngine
