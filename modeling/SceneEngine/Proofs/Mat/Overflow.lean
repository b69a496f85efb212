/-
Where a NaN in an inverse comes from.

From finite numbers one column makes no NaN (`step_ofNumbers`): a pivot is not zero, and what
is taken from a row is a product with a factor that is not zero. So before a NaN there is an
infinity, in the matrix or by an overflow on the way.

A matrix with an entry that is not finite has no inverse without NaNs. Passing over a column
costs the inverse, so every column has its pivot. Next to an infinite entry all numbers are
negligible, so the pivot of its column is a NaN (`isNaN_pivot`), and a NaN in the column that is
reduced spreads over a whole row of the inverse (`spread_reduceColumn`).
-/
import SceneEngine.Mat.Affine
import SceneEngine.Proofs.Binary.Special
import SceneEngine.Proofs.Mat.Elimination
import SceneEngine.Proofs.Mat.Transpose

namespace SceneEngine

namespace Elimination

section Columns

variable {α ω : Type} {n : Nat} [Scalar α] [Scalar ω] [Widening α ω]

/-- The elimination of `m` when its first `k` columns are done. -/
def after (t : Tolerance ω) (m : Mat α n n) (k : Nat) : Progress α n :=
  ((List.finRange n).take k).foldl (fun s j => step t m j s)
    { work := m, inverse := .identity, determinant := 1, rank := 0 }

variable {t : Tolerance ω} {m : Mat α n n} {s : Progress α n}

theorem after_succ {k : Nat} (hk : k < n) : after t m (k + 1) = step t m ⟨k, hk⟩ (after t m k) := by
  have hlength : k < (List.finRange n).length := by rwa [List.length_finRange]
  rw [after, List.take_add_one, List.getElem?_eq_getElem hlength, Option.toList_some, List.foldl_append,
    List.getElem_finRange]
  rfl

theorem after_all : after t m n = run t m := by
  rw [after, List.take_of_length_le (List.length_finRange (n := n)).le, run]

/-- A column is passed over, or it is reduced by a pivot that is not negligible. -/
theorem step_cases (j : Fin n) (s : Progress α n) : step t m j s = s ∨
    ∃ hr best, t.isNegligible s.work[best][j] (columnScale m j) = false ∧
      step t m j s = reduceColumn s j ⟨s.rank, hr⟩ best := by
  unfold step
  split
  · next hr =>
    dsimp only
    split
    · exact .inl rfl
    · next hneg => exact .inr ⟨hr, _, Bool.not_eq_true _ ▸ hneg, rfl⟩
  · exact .inl rfl

/-- Every column adds at most one to the rank. -/
theorem rank_after_add_le {k d : Nat} (hk : k + d ≤ n) :
    (after t m (k + d)).rank ≤ (after t m k).rank + d := by
  induction d with
  | zero => exact Nat.le_refl _
  | succ d ih =>
    have hle := ih (Nat.le_of_succ_le hk)
    rw [← Nat.add_assoc, after_succ (show k + d < n from hk)]
    obtain hpass | ⟨_, _, _, hstep⟩ := step_cases (t := t) (m := m) ⟨k + d, hk⟩ (after t m (k + d))
    · rw [hpass]
      exact Nat.le_succ_of_le hle
    · rw [hstep]
      exact Nat.succ_le_succ hle

/-- With a full rank no column was passed over. -/
theorem after_succ_of_full (hfull : n ≤ (run t m).rank) {k : Nat} (hk : k < n) :
    ∃ hr best,
      t.isNegligible (after t m k).work[best][(⟨k, hk⟩ : Fin n)] (columnScale m ⟨k, hk⟩) = false ∧
      after t m (k + 1) = reduceColumn (after t m k) ⟨k, hk⟩ ⟨(after t m k).rank, hr⟩ best := by
  rw [after_succ hk]
  refine (step_cases ⟨k, hk⟩ (after t m k)).resolve_left fun hpass => ?_
  have hbefore := rank_after_add_le (t := t) (m := m) (k := 0) (d := k) (by omega)
  have hafter := rank_after_add_le (t := t) (m := m) (k := k + 1) (d := n - (k + 1)) (by omega)
  rw [Nat.add_sub_cancel' hk, after_all, after_succ hk, hpass] at hafter
  have hstart : (after t m 0).rank = 0 := rfl
  rw [Nat.zero_add, hstart] at hbefore
  omega

/-- Two tolerances that both let a column pass reduce it alike: neither has a part in the pivot. -/
theorem step_eq_step {t' : Tolerance ω} {j : Fin n} (h : step t m j s ≠ s) (h' : step t' m j s ≠ s) :
    step t m j s = step t' m j s := by
  unfold step at h h' ⊢
  split at h
  · next hr =>
    rw [dif_pos hr, if_neg fun hneg => h (if_pos hneg)]
    rw [dif_pos hr] at h' ⊢
    rw [if_neg fun hneg => h' (if_pos hneg)]
  · exact absurd rfl h

/-- What comes of a matrix of full rank does not depend on the tolerance. -/
theorem after_eq_after {t' : Tolerance ω} (hfull : n ≤ (run t m).rank) (hfull' : n ≤ (run t' m).rank)
    {k : Nat} (hk : k ≤ n) : after t m k = after t' m k := by
  induction k with
  | zero => rfl
  | succ k ih =>
    have hreduced : ∀ {t : Tolerance ω}, n ≤ (run t m).rank →
        step t m ⟨k, hk⟩ (after t m k) ≠ after t m k := by
      intro t hfull hpass
      obtain ⟨hr, best, -, hstep⟩ := after_succ_of_full hfull hk
      rw [after_succ hk, hpass] at hstep
      exact Nat.succ_ne_self _ (congrArg Progress.rank hstep).symm
    have hprevious := ih (Nat.le_of_succ_le hk)
    have hreduced' := hreduced hfull'
    rw [← hprevious] at hreduced'
    rw [after_succ hk, after_succ hk, ← hprevious]
    exact step_eq_step (hreduced hfull) hreduced'

/-- A row with a factor equal to zero is left as it is. -/
theorem getElem_clearRows' (m : Mat α n n) (p : Fin n) (factor : Fin n → α) (i j : Fin n) :
    (clearRows m p factor)[i][j] = if i = p ∨ Scalar.same (factor i) 0 = true then m[i][j]
      else m[i][j] - factor i * m[p][j] := by
  simp only [clearRows, Mat.getElem_ofRows]
  by_cases hi : i = p
  · simp only [hi, if_true, true_or]
  by_cases hzero : Scalar.same (factor i) 0 = true
  · simp only [hi, hzero, if_true, if_false, or_true]
  · simp only [hi, hzero, if_false]
    exact Vec.getElem_ofFn _ j

end Columns

end Elimination

/-! ## From finite numbers -/

variable {f : Format} {r c n : Nat}

/-- Every entry is finite. -/
def Mat.Finite (m : Mat (Binary f) r c) : Prop := ∀ (i : Fin r) (j : Fin c), m[i][j].isFinite = true

/-- No entry is a NaN. -/
def Mat.NoNaN (m : Mat (Binary f) r c) : Prop := ∀ (i : Fin r) (j : Fin c), m[i][j].isNaN = false

instance (m : Mat (Binary f) r c) : Decidable m.Finite :=
  inferInstanceAs (Decidable (∀ (i : Fin r) (j : Fin c), m[i][j].isFinite = true))

instance (m : Mat (Binary f) r c) : Decidable m.NoNaN :=
  inferInstanceAs (Decidable (∀ (i : Fin r) (j : Fin c), m[i][j].isNaN = false))

theorem Mat.Finite.noNaN {m : Mat (Binary f) r c} (h : m.Finite) : m.NoNaN := fun i j =>
  Binary.isNaN_of_isFinite (h i j)

namespace Elimination

variable [Scalar (Binary f)] [Widening (Binary f) F64] [Binary.Standard f] {t : Tolerance F64}
  {m : Mat (Binary f) n n} {s : Progress (Binary f) n}

/-! ### Scales and pivots -/

/-- The largest size that a scan has seen is a number, and infinite as soon as an entry is. -/
theorem scan_spec (m : Mat (Binary f) n n) (j : Fin n) (l : List (Fin n)) :
    ∀ {scale : Binary f}, scale.isNaN = false → scale.negative = false →
      let last := l.foldl (fun scale i =>
        let size := Scalar.abs m[i][j]
        if scale < size then size else scale) scale
      last.isNaN = false ∧
        (scale.isInfinite = true ∨ (∃ i ∈ l, m[i][j].isInfinite = true) → last.isInfinite = true) := by
  induction l with
  | nil => exact fun hnan _ => ⟨hnan, fun h => h.resolve_right (by simp)⟩
  | cons i rest ih =>
    intro scale hnan hsign
    rw [List.foldl_cons, Binary.Standard.abs_eq]
    by_cases hlt : scale < m[i][j].abs
    · have hle := Binary.le_of_lt (Binary.Standard.lt_iff.mp hlt)
      obtain ⟨hlast, hinf⟩ := ih (Binary.le_iff.mp hle).2.1 rfl
      rw [if_pos hlt]
      refine ⟨hlast, fun h => hinf ?_⟩
      obtain hscale | ⟨k, hk, hentry⟩ := h
      · exact .inl (Binary.isInfinite_of_le hscale hsign hle)
      obtain rfl | hk := List.mem_cons.mp hk
      · exact .inl hentry
      · exact .inr ⟨k, hk, hentry⟩
    · obtain ⟨hlast, hinf⟩ := ih hnan hsign
      rw [if_neg hlt]
      refine ⟨hlast, fun h => hinf ?_⟩
      obtain hscale | ⟨k, hk, hentry⟩ := h
      · exact .inl hscale
      obtain rfl | hk := List.mem_cons.mp hk
      · have hsize : m[k][j].abs.isNaN = false := Binary.isNaN_of_isInfinite hentry
        have hle := Binary.le_of_not_lt hsize hnan (mt Binary.Standard.lt_iff.mpr hlt)
        exact .inl (Binary.isInfinite_of_le (x := m[k][j].abs) hentry rfl hle)
      · exact .inr ⟨k, hk, hentry⟩

/-- A column's scale is a number, and infinite as soon as an entry is. -/
theorem columnScale_spec (m : Mat (Binary f) n n) (j : Fin n) :
    (columnScale m j).isNaN = false ∧
      ((∃ i : Fin n, m[i][j].isInfinite = true) → (columnScale m j).isInfinite = true) := by
  have hzero : (0 : Binary f).isNaN = false ∧ (0 : Binary f).negative = false := by
    rw [Binary.Standard.zero_eq]
    exact ⟨rfl, rfl⟩
  obtain ⟨hnan, hinf⟩ := scan_spec m j (List.finRange n) hzero.1 hzero.2
  exact ⟨hnan, fun ⟨i, hi⟩ => hinf (.inr ⟨i, List.mem_finRange i, hi⟩)⟩

/-- A zero is negligible next to every scale. -/
theorem isZero_of_not_negligible (habs : 0 < t.absolute) (hrel : 0 < t.relative) {x scale : Binary f}
    (hscale : scale.isNaN = false) (h : t.isNegligible x scale = false) : x.isZero = false := by
  rw [Bool.eq_false_iff]
  intro hx
  obtain ⟨hanan, hasign, _⟩ := Binary.Standard.of_pos habs
  obtain ⟨hrnan, hrsign, hrzero⟩ := Binary.Standard.of_pos hrel
  have hvalue : (Scalar.abs (widen x : F64)).magnitude = 0 :=
    beq_iff_eq.mp (Binary.Standard.isZero_widen x hx)
  have hsnan : (widen scale : F64).abs.isNaN = false := (Binary.Standard.isNaN_widen scale).trans hscale
  have hle {bound : F64} (hnan : bound.isNaN = false) (hsign : bound.negative = false) :
      Scalar.abs (widen x : F64) ≤ bound := by
    refine Binary.le_iff.mpr ⟨Binary.isNaN_of_zero hvalue, hnan, ?_⟩
    have hkey := Binary.natAbs_key (Scalar.abs (widen x : F64))
    have hbound := Binary.key_nonneg hsign
    omega
  simp only [Tolerance.isNegligible] at h
  split at h
  · exact of_decide_eq_false h (hle hanan hasign)
  · next hsize =>
    have hszero : (widen scale : F64).abs.isZero = false :=
      Bool.eq_false_iff.mpr fun hz => hsize (Binary.Standard.same_zero_iff.mpr hz)
    refine of_decide_eq_false h (hle ?_ ?_)
    · exact Binary.isNaN_mul hrnan hsnan fun _ => ⟨hrzero, hszero⟩
    · refine (Binary.negative_mul hrnan hrzero hsnan hszero).trans ?_
      rw [hrsign]
      rfl

/-- Next to an infinite scale every number is negligible. -/
theorem isNaN_of_not_negligible (hrel : 0 < t.relative) {x scale : Binary f}
    (hscale : scale.isInfinite = true) (h : t.isNegligible x scale = false) : x.isNaN = true := by
  obtain ⟨hrnan, hrsign, hrzero⟩ := Binary.Standard.of_pos hrel
  have hsinf : (widen scale : F64).abs.isInfinite = true :=
    (Binary.Standard.isInfinite_widen scale).trans hscale
  have hszero : (widen scale : F64).abs.isZero = false := Binary.isZero_of_isInfinite (by decide) hsinf
  have hsnan := Binary.isNaN_of_isInfinite hsinf
  have hbound : t.relative * Scalar.abs (widen scale : F64) = .signedInfinity false := by
    refine (Binary.mul_of_isInfinite hrnan hrzero hsnan hszero hsinf).trans ?_
    rw [hrsign]
    rfl
  have hsame : Scalar.same (Scalar.abs (widen scale : F64)) 0 = false := by
    rw [Bool.eq_false_iff]
    intro hsame
    exact Bool.eq_false_iff.mp hszero (Binary.Standard.same_zero_iff.mp hsame)
  simp only [Tolerance.isNegligible, hsame, hbound, Bool.false_eq_true, if_false] at h
  by_contra hx
  exact of_decide_eq_false h
    (Binary.le_signedInfinity ((Binary.Standard.isNaN_widen x).trans (Bool.not_eq_true _ ▸ hx)))

/-! ### One column -/

/-- What is taken from a row of finite numbers is a number. -/
theorem noNaN_clearRows {k : Mat (Binary f) n n} {p : Fin n} {factor : Fin n → Binary f}
    (hk : ∀ i, i ≠ p → ∀ j : Fin n, k[i][j].isFinite = true) (hp : ∀ j : Fin n, k[p][j].isNaN = false)
    (hfactor : ∀ i, i ≠ p → (factor i).isFinite = true) : (clearRows k p factor).NoNaN := by
  intro i j
  rw [getElem_clearRows']
  by_cases hi : i = p
  · rw [if_pos (.inl hi), hi]
    exact hp j
  split
  · exact Binary.isNaN_of_isFinite (hk i hi j)
  · next h =>
    have hzero : (factor i).isZero = false :=
      Bool.eq_false_iff.mpr fun hz => h (.inr (Binary.Standard.same_zero_iff.mpr hz))
    have hf : 0 < f.infinity := Nat.zero_lt_of_lt (Binary.lt_infinity (hfactor i hi))
    rw [Binary.Standard.sub_eq, Binary.Standard.mul_eq]
    refine Binary.isNaN_sub_of_isFinite (hk i hi j)
      (Binary.isNaN_mul (Binary.isNaN_of_isFinite (hfactor i hi)) (hp j) fun hinf => ⟨hzero, ?_⟩)
    refine Binary.isZero_of_isInfinite hf (hinf.resolve_left ?_)
    rw [Binary.isInfinite_of_isFinite (hfactor i hi)]
    exact Bool.false_ne_true

/-- One column makes no NaN of finite numbers. -/
theorem noNaN_reduceColumn {j p best : Fin n} (hwork : s.work.Finite) (hinverse : s.inverse.Finite)
    (hpivot : s.work[best][j].isZero = false) :
    (reduceColumn s j p best).work.NoNaN ∧ (reduceColumn s j p best).inverse.NoNaN := by
  have hdivided (k : Mat (Binary f) n n) (hk : k.Finite) :
      (∀ i, i ≠ p → ∀ c : Fin n,
        (divideRow (swapRows k best p) p s.work[best][j])[i][c].isFinite = true) ∧
      ∀ c : Fin n, (divideRow (swapRows k best p) p s.work[best][j])[p][c].isNaN = false := by
    refine ⟨fun i hi c => ?_, fun c => ?_⟩
    · rw [getElem_divideRow, if_neg hi, getElem_swapRows]
      exact hk _ _
    · rw [getElem_divideRow, if_pos rfl, getElem_swapRows, Binary.Standard.div_eq]
      exact Binary.isNaN_div (Binary.isNaN_of_isFinite (hk _ _)) (Binary.isNaN_of_isFinite (hwork _ _))
        (fun _ => Binary.isInfinite_of_isFinite (hwork _ _)) fun _ => hpivot
  have hfactor := fun i hi => (hdivided s.work hwork).1 i hi j
  exact ⟨noNaN_clearRows (hdivided _ hwork).1 (hdivided _ hwork).2 hfactor,
    noNaN_clearRows (hdivided _ hinverse).1 (hdivided _ hinverse).2 hfactor⟩

theorem noNaN_step (habs : 0 < t.absolute) (hrel : 0 < t.relative) (j : Fin n) (hwork : s.work.Finite)
    (hinverse : s.inverse.Finite) : (step t m j s).work.NoNaN ∧ (step t m j s).inverse.NoNaN := by
  obtain hpass | ⟨hr, best, hpivot, hstep⟩ := step_cases (t := t) (m := m) j s
  · rw [hpass]
    exact ⟨hwork.noNaN, hinverse.noNaN⟩
  · rw [hstep]
    exact noNaN_reduceColumn hwork hinverse
      (isZero_of_not_negligible habs hrel (columnScale_spec m j).1 hpivot)

/-! ## What a NaN spreads over -/

/-- Row `i` goes to row `swap best p i`, with its NaNs. -/
theorem isNaN_clearRows {k : Mat (Binary f) n n} {p best i c : Fin n} {pivot : Binary f}
    {factor : Fin n → Binary f} (h : k[i][c].isNaN = true) :
    (clearRows (divideRow (swapRows k best p) p pivot) p factor)[Equiv.swap best p i][c].isNaN =
      true := by
  have hdivided : (divideRow (swapRows k best p) p pivot)[Equiv.swap best p i][c].isNaN = true := by
    rw [getElem_divideRow, getElem_swapRows, Equiv.swap_apply_self, Binary.Standard.div_eq]
    split
    · exact Binary.isNaN_div_left h
    · exact h
  rw [getElem_clearRows', Binary.Standard.sub_eq]
  split
  · exact hdivided
  · exact Binary.isNaN_sub_left hdivided

/-- A NaN in the column that is reduced spreads over its row: as the pivot it divides the row, and
as a factor it is taken from it. -/
theorem isNaN_inverse_reduceColumn {j p best i : Fin n} (h : s.work[i][j].isNaN = true) (c : Fin n) :
    (reduceColumn s j p best).inverse[Equiv.swap best p i][c].isNaN = true := by
  by_cases hi : Equiv.swap best p i = p
  · have hbest : i = best := by
      rw [← Equiv.swap_apply_self best p i, hi, Equiv.swap_apply_right]
    simp only [reduceColumn]
    rw [getElem_clearRows', if_pos (.inl hi), getElem_divideRow, if_pos hi, Binary.Standard.div_eq]
    exact Binary.isNaN_div_right (hbest ▸ h)
  · have hfactor : (divideRow (swapRows s.work best p) p s.work[best][j])[Equiv.swap best p i][j].isNaN =
        true := by
      rw [getElem_divideRow, if_neg hi, getElem_swapRows, Equiv.swap_apply_self]
      exact h
    have hsame :
        Scalar.same (divideRow (swapRows s.work best p) p s.work[best][j])[Equiv.swap best p i][j]
        0 = false := by
      rw [Binary.Standard.same_eq, Binary.eq, hfactor]
      rfl
    simp only [reduceColumn]
    rw [getElem_clearRows', if_neg (by simp [hi, hsame]), Binary.Standard.sub_eq, Binary.Standard.mul_eq]
    exact Binary.isNaN_sub_right (Binary.isNaN_mul_left hfactor)

/-! ## Over all columns -/

/-- As long as there are pivots, what is a NaN stays one. -/
theorem isNaN_after (hfull : n ≤ (run t m).rank) {i j : Fin n} {k : Nat} (hk : k ≤ n)
    (h : m[i][j].isNaN = true) : ∃ a : Fin n, (after t m k).work[a][j].isNaN = true := by
  induction k with
  | zero => exact ⟨i, h⟩
  | succ k ih =>
    obtain ⟨a, ha⟩ := ih (Nat.le_of_succ_le hk)
    obtain ⟨hr, best, -, hstep⟩ := after_succ_of_full hfull hk
    rw [hstep]
    exact ⟨_, isNaN_clearRows ha⟩

/-- When its turn comes, the column of an entry that is not finite has a NaN. -/
theorem isNaN_column (hrel : 0 < t.relative) (hfull : n ≤ (run t m).rank) {i j : Fin n}
    (h : m[i][j].isFinite = false) : ∃ a : Fin n, (after t m j).work[a][j].isNaN = true := by
  cases hnan : m[i][j].isNaN with
  | true => exact isNaN_after hfull j.isLt.le hnan
  | false =>
    have hscale := (columnScale_spec m j).2 ⟨i, Binary.isInfinite_of_not_isFinite h hnan⟩
    obtain ⟨hr, best, hpivot, -⟩ := after_succ_of_full hfull j.isLt
    exact ⟨best, isNaN_of_not_negligible hrel hscale hpivot⟩

/-- So in the end a whole row is made of NaNs. -/
theorem isNaN_row (hrel : 0 < t.relative) (hfull : n ≤ (run t m).rank) {i j : Fin n}
    (h : m[i][j].isFinite = false) : ∃ a : Fin n, ∀ c : Fin n, (run t m).inverse[a][c].isNaN = true := by
  suffices ∀ d, j + 1 + d ≤ n →
      ∃ a : Fin n, ∀ c : Fin n, (after t m (j + 1 + d)).inverse[a][c].isNaN = true by
    obtain ⟨a, ha⟩ := this (n - (j + 1)) (by omega)
    rw [Nat.add_sub_cancel' j.isLt, after_all] at ha
    exact ⟨a, ha⟩
  intro d
  induction d with
  | zero =>
    intro hd
    obtain ⟨a, ha⟩ := isNaN_column hrel hfull h
    obtain ⟨hr, best, -, hstep⟩ := after_succ_of_full hfull j.isLt
    rw [Nat.add_zero, hstep]
    exact ⟨_, isNaN_inverse_reduceColumn ha⟩
  | succ d ih =>
    intro hd
    obtain ⟨a, ha⟩ := ih (by omega)
    obtain ⟨hr, best, -, hstep⟩ := after_succ_of_full hfull (show j + 1 + d < n from hd)
    rw [← Nat.add_assoc, hstep]
    exact ⟨_, fun c => isNaN_clearRows (ha c)⟩

/-- From finite numbers to none, to infinities first. -/
def Overflows (s s' : Progress (Binary f) n) : Prop :=
  (s.work.Finite ∧ s.inverse.Finite) ∧ (s'.work.NoNaN ∧ s'.inverse.NoNaN) ∧
    ¬ (s'.work.Finite ∧ s'.inverse.Finite)

instance (s s' : Progress (Binary f) n) : Decidable (Overflows s s') :=
  inferInstanceAs (Decidable (_ ∧ _ ∧ ¬ _))

theorem finite_after_or_overflows (habs : 0 < t.absolute) (hrel : 0 < t.relative)
    (hm : m.Finite) {k : Nat}
    (hk : k ≤ n) : ((after t m k).work.Finite ∧ (after t m k).inverse.Finite) ∨
      ∃ l < k, Overflows (after t m l) (after t m (l + 1)) := by
  induction k with
  | zero =>
    refine .inl ⟨hm, fun i j => ?_⟩
    show (Mat.identity : Mat (Binary f) n n)[i][j].isFinite = true
    rw [Mat.identity, Mat.getElem_ofFn]
    split
    · exact Binary.Standard.one
    · exact Binary.Standard.isFinite_zero
  | succ k ih =>
    obtain hfinite | ⟨l, hl, hover⟩ := ih (Nat.le_of_succ_le hk)
    · by_cases hnext : (after t m (k + 1)).work.Finite ∧ (after t m (k + 1)).inverse.Finite
      · exact .inl hnext
      · refine .inr ⟨k, Nat.lt_succ_self k, hfinite, ?_, hnext⟩
        rw [after_succ hk]
        exact noNaN_step habs hrel _ hfinite.1 hfinite.2
    · exact .inr ⟨l, Nat.lt_succ_of_lt hl, hover⟩

end Elimination

namespace Mat

theorem inverse_eq_ok_iff {α ω : Type} [Scalar α] [Scalar ω] [Widening α ω] {t : Tolerance ω}
    {m i : Mat α n n} : m.inverse t = .ok i ↔
      n ≤ (Elimination.run t m).rank ∧ i = (Elimination.run t m).inverse :=
  inverse_eq_ok_iff_some.trans inverse_eliminate_eq_some_iff

/-- A tolerance decides whether there is a normal matrix, and not which. -/
theorem normalMatrix_unique {α ω : Type} [Scalar α] [Scalar ω] [Widening α ω] {t t' : Tolerance ω}
    {m : Mat α 4 4} {normal normal' : Mat α 3 3} (h : m.normalMatrix t = .ok normal)
    (h' : m.normalMatrix t' = .ok normal') : normal = normal' := by
  obtain ⟨i, hi, rfl⟩ := normalMatrix_eq_ok_iff.mp h
  obtain ⟨i', hi', rfl⟩ := normalMatrix_eq_ok_iff.mp h'
  obtain ⟨hfull, rfl⟩ := inverse_eq_ok_iff.mp hi
  obtain ⟨hfull', rfl⟩ := inverse_eq_ok_iff.mp hi'
  rw [← Elimination.after_all, ← Elimination.after_all, Elimination.after_eq_after hfull hfull' le_rfl]

variable [Scalar (Binary f)] [Widening (Binary f) F64] [Binary.Standard f] {t : Tolerance F64}

theorem exists_nan_row (hrel : 0 < t.relative) {m i : Mat (Binary f) n n} (h : m.inverse t = .ok i)
    (hm : ¬ m.Finite) : ∃ a : Fin n, ∀ b : Fin n, i[a][b].isNaN = true := by
  obtain ⟨hfull, rfl⟩ := inverse_eq_ok_iff.mp h
  simp only [Finite, not_forall, Bool.not_eq_true] at hm
  obtain ⟨a, b, hab⟩ := hm
  exact Elimination.isNaN_row hrel hfull hab

theorem noNaN_inverse (habs : 0 < t.absolute) (hrel : 0 < t.relative) {m i : Mat (Binary f) n n}
    (h : m.inverse t = .ok i) (hm : m.Finite)
    (hsteady : ∀ k, k + 1 < n →
      ¬ Elimination.Overflows (Elimination.after t m k) (Elimination.after t m (k + 1))) :
    i.NoNaN := by
  obtain ⟨-, rfl⟩ := inverse_eq_ok_iff.mp h
  cases n with
  | zero => exact fun a => a.elim0
  | succ n =>
    obtain hfinite | ⟨k, hk, hover⟩ :=
      Elimination.finite_after_or_overflows habs hrel hm (Nat.le_succ n)
    · rw [← Elimination.after_all, Elimination.after_succ (Nat.lt_succ_self n)]
      exact (Elimination.noNaN_step habs hrel _ hfinite.1 hfinite.2).2
    · exact absurd hover (hsteady k (by omega))

/-- **Where a NaN in an inverse comes from.** In both formats and under any tolerance with positive
bounds: an inverse that is returned for a matrix of finite numbers has no NaN unless one of
the columns before the last, reduced while all numbers were finite, overflowed to an infinity;
and one that is returned for a matrix with an infinity or a NaN in it has a row of NaNs. The
same holds of normal matrices, with a column for the row. -/
theorem inverse_nan_sources (habs : 0 < t.absolute) (hrel : 0 < t.relative) :
    (∀ (n : Nat) (m i : Mat (Binary f) n n), m.inverse t = .ok i →
      (m.Finite → (∀ k, k + 1 < n →
          ¬ Elimination.Overflows (Elimination.after t m k) (Elimination.after t m (k + 1))) → i.NoNaN) ∧
      (¬ m.Finite → ∃ a : Fin n, ∀ b : Fin n, i[a][b].isNaN = true)) ∧
    ∀ (m : Mat (Binary f) 4 4) (normal : Mat (Binary f) 3 3), m.normalMatrix t = .ok normal →
      (m.upperLeft.Finite → (∀ k, k + 1 < 3 → ¬ Elimination.Overflows
          (Elimination.after t m.upperLeft k) (Elimination.after t m.upperLeft (k + 1))) →
          normal.NoNaN) ∧
      (¬ m.upperLeft.Finite → ∃ b : Fin 3, ∀ a : Fin 3, normal[a][b].isNaN = true) := by
  refine ⟨fun n m i h => ⟨noNaN_inverse habs hrel h, exists_nan_row hrel h⟩, fun m normal h => ?_⟩
  obtain ⟨i, hi, rfl⟩ := normalMatrix_eq_ok_iff.mp h
  refine ⟨fun hm hsteady a b => ?_, fun hm => ?_⟩
  · rw [transpose, getElem_ofFn]
    exact noNaN_inverse habs hrel hi hm hsteady b a
  · obtain ⟨b, hb⟩ := exists_nan_row hrel hi hm
    refine ⟨b, fun a => ?_⟩
    rw [transpose, getElem_ofFn]
    exact hb a

/-- A matrix of finite numbers that reduces without an overflow, and one with a NaN. -/
theorem inverse_nan_sources_shear :
    ∃ m k i j : Mat F32 2 2,
      m = ⟨.of2 (.of2 1 ((3 : Nat) : F32)) (.of2 ((2 : Nat) : F32) 1)⟩ ∧
        m.inverse .single = .ok i ∧ i.NoNaN ∧
      k = ⟨.of2 (.of2 1 (Binary.signedNaN false)) (.of2 0 1)⟩ ∧ k.inverse .single = .ok j ∧
      ∃ a : Fin 2, ∀ b : Fin 2, j[a][b].isNaN = true := by
  let m : Mat F32 2 2 := ⟨.of2 (.of2 1 ((3 : Nat) : F32)) (.of2 ((2 : Nat) : F32) 1)⟩
  let k : Mat F32 2 2 := ⟨.of2 (.of2 1 (Binary.signedNaN false)) (.of2 0 1)⟩
  obtain ⟨i, hm⟩ : ∃ i, m.inverse .single = .ok i :=
    ⟨_, inverse_eq_ok_iff.mpr ⟨by decide +kernel, rfl⟩⟩
  obtain ⟨j, hk⟩ : ∃ j, k.inverse .single = .ok j :=
    ⟨_, inverse_eq_ok_iff.mpr ⟨by decide +kernel, rfl⟩⟩
  have hsteady : ¬ Elimination.Overflows (Elimination.after .single m 0)
      (Elimination.after .single m 1) := by
    decide +kernel
  have hsources := (inverse_nan_sources (f := .single) (t := .single) (by decide +kernel)
    (by decide +kernel)).1 2
  have hclean := (hsources m i hm).1 (by decide +kernel) fun l hl => by
    obtain rfl : l = 0 := by omega
    exact hsteady
  have hrow := (hsources k j hk).2 (by decide +kernel)
  exact ⟨m, k, i, j, rfl, hm, hclean, rfl, hk, hrow⟩

/-- All entries of a matrix and of its true inverse are powers of two, and what is returned for the
inverse has NaNs: the first column divides a large entry by a small pivot. -/
theorem inverse_leaks_nan :
    let small : F32 := .ofWord 0x2b800000
    let large : F32 := .ofWord 0x71800000
    let m : Mat F32 2 2 := ⟨.of2 (.of2 small large) (.of2 small (-large))⟩
    m.Finite ∧ ∃ i, m.inverse .single = .ok i ∧ ¬ i.NoNaN := by
  refine ⟨by decide +kernel, _, inverse_eq_ok_iff.mpr ⟨by decide +kernel, rfl⟩, by decide +kernel⟩

end Mat

end SceneEngine
