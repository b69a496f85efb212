/-
A matrix is judged by its shape and not by its magnitude.

Multiplying the columns of a matrix by factors other than zero changes nothing about its
elimination but the entries: the same columns are passed over, and the others have their
pivots in the same rows. Two eliminations side by side show it. In a row without a pivot
the second has the entries of the first times the factors of their columns, so it finds the
same pivot, and a column's largest entry has grown as the pivot has. A row with a pivot has
been divided by the factor of the pivot's column, so it lags behind by that (`Scaled`).

That ranks are equal is all that has to be followed step by step. What is returned with a
full rank is the inverse and the determinant, and these are known from soundness.
-/
import Mathlib.LinearAlgebra.Matrix.Rank
import SceneEngine.Mat.Affine
import SceneEngine.Proofs.Mat.Elimination

namespace SceneEngine

open scoped Exact

section Field

variable {K : Type} [Field K] [LinearOrder K] [FieldFunctions K] {n : Nat}

namespace Mat

/-- The matrix with the given diagonal and zeros elsewhere. -/
def diagonal {α : Type} [Scalar α] (d : Vec α n) : Mat α n n :=
  ofFn fun i j => if i = j then d[i] else 0

@[simp] theorem toMatrix_diagonal (d : Vec K n) :
    (diagonal d).toMatrix = Matrix.diagonal fun i => d[i] := by
  ext i j
  rw [toMatrix_apply, diagonal, getElem_ofFn, Matrix.diagonal_apply]

theorem getElem_mul_diagonal (m : Mat K n n) (d : Vec K n) (i j : Fin n) :
    (m * diagonal d)[i][j] = m[i][j] * d[j] := by
  rw [← toMatrix_apply, toMatrix_mul, toMatrix_diagonal, Matrix.mul_diagonal, toMatrix_apply]

end Mat

namespace Elimination

/-! ## Decisions of a step -/

theorem pivotRow_congr {work work' : Mat K n n} {j first : Fin n}
    (h : ∀ i k : Fin n, first ≤ i → first ≤ k →
      (|work'[i][j]| < |work'[k][j]| ↔ |work[i][j]| < |work[k][j]|)) :
    pivotRow work' j first = pivotRow work j first := by
  unfold pivotRow
  -- Both scans are at the same row, which is none above the first.
  refine (List.foldl_rel (r := fun best' best => best' = best ∧ first ≤ best) ⟨rfl, le_refl first⟩ ?_).1
  rintro i _ best' best ⟨rfl, hbest⟩
  have hsame : (first < i ∧ Scalar.abs work'[best'][j] < Scalar.abs work'[i][j]) ↔
      (first < i ∧ Scalar.abs work[best'][j] < Scalar.abs work[i][j]) :=
    and_congr_right fun hi => h best' i hbest (le_of_lt hi)
  simp only [hsame, true_and]
  split
  · next hlt => exact le_of_lt hlt.1
  · exact hbest

variable [IsStrictOrderedRing K] {d : Vec K n} {j : Fin n}

theorem columnScale_mul_diagonal (m : Mat K n n) (hd : d[j] ≠ 0) :
    columnScale (m * Mat.diagonal d) j = columnScale m j * |d[j]| := by
  have hsize (i : Fin n) : Scalar.abs (m * Mat.diagonal d)[i][j] = Scalar.abs m[i][j] * |d[j]| := by
    rw [Mat.getElem_mul_diagonal]
    exact abs_mul _ _
  unfold columnScale
  nth_rewrite 1 [← zero_mul |d[j]|]
  refine List.foldl_hom (· * |d[j]|) fun scale i => ?_
  simp only [hsize, mul_lt_mul_iff_left₀ (abs_pos.mpr hd), ite_mul]

/-- No entry of a column is larger than its scale, so a scale of zero is that of zeros. -/
theorem eq_zero_of_columnScale {m : Mat K n n} (h : columnScale m j = 0) (i : Fin n) :
    m[i][j] = 0 := by
  have hscan : ∀ (l : List (Fin n)) (scale : K),
      let last := l.foldl (fun scale i =>
        let size := Scalar.abs m[i][j]
        if scale < size then size else scale) scale
      scale ≤ last ∧ ∀ i ∈ l, |m[i][j]| ≤ last := by
    intro l
    induction l with
    | nil => exact fun scale => ⟨le_refl _, by simp⟩
    | cons k rest ih =>
      intro scale
      rw [List.foldl_cons]
      dsimp only
      split
      · next hlt =>
        obtain ⟨hk, hrest⟩ := ih (Scalar.abs m[k][j])
        exact ⟨(le_of_lt hlt).trans hk, List.forall_mem_cons.mpr ⟨hk, hrest⟩⟩
      · next hnot =>
        obtain ⟨hscale, hrest⟩ := ih scale
        exact ⟨hscale, List.forall_mem_cons.mpr ⟨(not_lt.mp hnot).trans hscale, hrest⟩⟩
  have hle := (hscan (List.finRange n) 0).2 i (List.mem_finRange i)
  rw [← columnScale, h] at hle
  exact abs_nonpos_iff.mp hle

/-- A value is negligible next to another exactly when their multiples are. -/
theorem isNegligible_mul {t : Tolerance K} {x scale k : K} (hk : k ≠ 0)
    (hzero : scale = 0 → x = 0) :
    t.isNegligible (x * k) (scale * |k|) = t.isNegligible x scale := by
  have hpos := abs_pos.mpr hk
  have hvalue : Scalar.abs (x * k) = Scalar.abs x * |k| := abs_mul x k
  have hsize : Scalar.abs (scale * |k|) = Scalar.abs scale * |k| :=
    (abs_mul scale _).trans (congrArg _ (abs_abs k))
  have hsame : Scalar.same (Scalar.abs scale * |k|) 0 = Scalar.same (Scalar.abs scale) (0 : K) := by
    rw [Bool.eq_iff_iff, Exact.same_iff, Exact.same_iff, mul_eq_zero, or_iff_left hpos.ne']
  simp only [Tolerance.isNegligible, widen, id, hvalue, hsize, hsame]
  split
  · next hnull =>
    -- Both values are zeros, next to a scale that is one.
    have hx : x = 0 := hzero (abs_eq_zero.mp (Exact.same_iff.mp hnull))
    have habs : Scalar.abs x = 0 := abs_eq_zero.mpr hx
    simp only [habs, zero_mul]
  · rw [← mul_assoc, decide_eq_decide, mul_le_mul_iff_left₀ hpos]

/-! ## Two eliminations side by side -/

/-- The second elimination has the entries of the first times the factors of their columns, in
a row with a pivot behind by some factor. A column of zeros stays one. -/
structure Scaled (m : Mat K n n) (d : Vec K n) (s s' : Progress K n) : Prop where
  rank : s'.rank = s.rank
  entries : ∃ lag : Fin n → K, (∀ i, s.rank ≤ i.val → lag i = 1) ∧
    ∀ i c : Fin n, s'.work[i][c] = lag i * s.work[i][c] * d[c]
  null : ∀ c : Fin n, (∀ i : Fin n, m[i][c] = 0) → ∀ i : Fin n, s.work[i][c] = 0

variable {m : Mat K n n} {s s' : Progress K n}

omit [IsStrictOrderedRing K] in
theorem Scaled.reduceColumn {p best : Fin n} (h : Scaled m d s s') (hd : d[j] ≠ 0)
    (hp : s.rank = p.val) (hbest : s.rank ≤ best.val) :
    Scaled m d (reduceColumn s j p best) (reduceColumn s' j p best) := by
  obtain ⟨lag, hlag, hentries⟩ := h.entries
  refine ⟨congrArg (· + 1) h.rank, ⟨Function.update lag p d[j]⁻¹, fun i hi => ?_, fun i c => ?_⟩,
    fun c hc i => ?_⟩
  · have hi : s.rank + 1 ≤ i.val := hi
    have hne : i ≠ p := fun heq => by rw [heq] at hi; omega
    rw [Function.update_of_ne hne, hlag i (by omega)]
  · rw [getElem_reduceColumn, getElem_reduceColumn, hentries, hentries, hlag best hbest, one_mul,
      one_mul]
    by_cases hi : i = p
    · rw [if_pos hi, if_pos hi, hi, Function.update_self]
      field_simp
    · -- The rows exchanged are both without a pivot, so neither lags behind.
      have hswap : lag (Equiv.swap best p i) = lag i := by
        by_cases hib : i = best
        · rw [hib, Equiv.swap_apply_left, hlag p (by omega), hlag best hbest]
        · rw [Equiv.swap_apply_of_ne_of_ne hib hi]
      rw [if_neg hi, if_neg hi, hentries, hentries, hswap, Function.update_of_ne hi]
      field_simp
  · rw [getElem_reduceColumn]
    simp only [h.null c hc, zero_div, mul_zero, sub_zero, ite_self]

/-- Both treat a column alike: they find the pivot in one row, and keep it or pass it over. -/
theorem Scaled.step {t : Tolerance K} (h : Scaled m d s s') (hd : d[j] ≠ 0) :
    Scaled m d (step t m j s) (step t (m * Mat.diagonal d) j s') := by
  obtain ⟨lag, hlag, hentries⟩ := h.entries
  obtain ⟨work', inverse', determinant', rank'⟩ := s'
  obtain rfl : rank' = s.rank := h.rank
  have hfree : ∀ i : Fin n, s.rank ≤ i.val → work'[i][j] = s.work[i][j] * d[j] := fun i hi => by
    rw [hentries, hlag i hi, one_mul]
  unfold Elimination.step
  by_cases hr : s.rank < n
  · have hpivot : pivotRow work' j ⟨s.rank, hr⟩ = pivotRow s.work j ⟨s.rank, hr⟩ := by
      refine pivotRow_congr fun i k hi hk => ?_
      rw [hfree i hi, hfree k hk, abs_mul, abs_mul, mul_lt_mul_iff_left₀ (abs_pos.mpr hd)]
    have hbest : s.rank ≤ (pivotRow s.work j ⟨s.rank, hr⟩).val := le_pivotRow s.work j ⟨s.rank, hr⟩
    have hnull : columnScale m j = 0 → s.work[pivotRow s.work j ⟨s.rank, hr⟩][j] = 0 := fun hzero =>
      h.null j (eq_zero_of_columnScale hzero) _
    simp only [dif_pos hr, hpivot, hfree _ hbest, columnScale_mul_diagonal m hd,
      isNegligible_mul hd hnull]
    split
    · exact h
    · exact h.reduceColumn hd rfl hbest
  · simp only [dif_neg hr]
    exact h

theorem scaled_run (t : Tolerance K) (m : Mat K n n) (hd : ∀ j : Fin n, d[j] ≠ 0) :
    Scaled m d (run t m) (run t (m * Mat.diagonal d)) := by
  unfold run
  refine List.foldl_rel ?_ fun j _ s s' h => h.step (hd j)
  exact ⟨rfl, ⟨1, fun _ _ => rfl, fun i c => by rw [Mat.getElem_mul_diagonal, Pi.one_apply, one_mul]⟩,
    fun c hc => hc⟩

end Elimination

/-! ## Uniform scaling of a model -/

namespace Mat

theorem toMatrix_scaling (v : Vec K 3) :
    (scaling v).toMatrix = Matrix.diagonal ![v.x, v.y, v.z, 1] := by
  ext i j
  fin_cases i <;> fin_cases j <;> rfl

/-- Scaling before a model scales the columns of its linear part. -/
theorem upperLeft_mul_scaling (a : Mat K 4 4) (v : Vec K 3) :
    (a * scaling v).upperLeft = a.upperLeft * diagonal v := by
  ext i j
  rw [getElem_mul_diagonal, upperLeft, upperLeft, getElem_ofFn, getElem_ofFn, ← toMatrix_apply,
    toMatrix_mul, toMatrix_scaling, Matrix.mul_diagonal, toMatrix_apply]
  fin_cases j <;> rfl

/-- A model scaled further is the model after a scaling. -/
theorem model_mul (position rotation scale : Vec K 3) (k : K) :
    model position rotation (scale * k) = model position rotation scale * scaling (.splat k) := by
  have hscaling : (scaling (scale * k)).toMatrix =
      (scaling scale).toMatrix * (scaling (.splat k)).toMatrix := by
    rw [toMatrix_scaling, toMatrix_scaling, toMatrix_scaling, Matrix.diagonal_mul_diagonal]
    refine congrArg Matrix.diagonal (funext fun i => ?_)
    fin_cases i
    · rfl
    · rfl
    · rfl
    · exact (mul_one 1).symm
  apply toMatrix_injective
  simp only [model, toMatrix_mul, hscaling, Matrix.mul_assoc]

variable {t : Tolerance K}

/-- A model has a normal matrix when its linear part has an inverse. -/
theorem exists_normalMatrix_iff (a : Mat K 4 4) :
    (∃ normal, a.normalMatrix t = .ok normal) ↔ (a.upperLeft.eliminate t).inverse.isSome = true := by
  unfold normalMatrix inverse
  cases h : (a.upperLeft.eliminate t).inverse <;> simp [h, Except.map]

variable [IsStrictOrderedRing K] {m : Mat K n n} {d : Vec K n}

/-! ## What is returned -/

theorem rank_mul_diagonal (t : Tolerance K) (m : Mat K n n) (hd : ∀ j : Fin n, d[j] ≠ 0) :
    ((m * diagonal d).eliminate t).rank = (m.eliminate t).rank := by
  rw [rank_eliminate, rank_eliminate]
  exact (Elimination.scaled_run t m hd).rank

theorem determinant_mul_diagonal (habs : 0 ≤ t.absolute) (hrel : 0 ≤ t.relative) (m : Mat K n n)
    (hd : ∀ j : Fin n, d[j] ≠ 0) : ((m * diagonal d).eliminate t).determinant =
      (∏ j : Fin n, d[j]) * (m.eliminate t).determinant := by
  have h := Elimination.Reduces.run habs hrel m
  have h' := Elimination.Reduces.run habs hrel (m * diagonal d)
  have hrank := (Elimination.scaled_run t m hd).rank
  rcases Nat.lt_or_ge (Elimination.run t m).rank n with hr | hr
  · rw [eliminate_of_lt hr, eliminate_of_lt (hrank ▸ hr)]
    exact (mul_zero _).symm
  · have hfull : (Elimination.run t m).rank = n := Nat.le_antisymm h.rank_le hr
    rw [eliminate_of_le hr, eliminate_of_le (hrank ▸ hr)]
    simp only [h.det_eq hfull, h'.det_eq (hrank.trans hfull), toMatrix_mul, toMatrix_diagonal,
      Matrix.det_mul, Matrix.det_diagonal, mul_comm]

theorem inverse_mul_diagonal (habs : 0 ≤ t.absolute) (hrel : 0 ≤ t.relative) (m : Mat K n n)
    (hd : ∀ j : Fin n, d[j] ≠ 0) : ((m * diagonal d).eliminate t).inverse =
      (m.eliminate t).inverse.map (diagonal (d.map fun x => x⁻¹) * ·) := by
  have h := Elimination.Reduces.run habs hrel m
  have h' := Elimination.Reduces.run habs hrel (m * diagonal d)
  have hrank := (Elimination.scaled_run t m hd).rank
  rcases Nat.lt_or_ge (Elimination.run t m).rank n with hr | hr
  · rw [eliminate_of_lt hr, eliminate_of_lt (hrank ▸ hr)]
    rfl
  · have hfull : (Elimination.run t m).rank = n := Nat.le_antisymm h.rank_le hr
    rw [eliminate_of_le hr, eliminate_of_le (hrank ▸ hr)]
    have hundo : (diagonal d).toMatrix * (diagonal (d.map fun x => x⁻¹)).toMatrix = 1 := by
      rw [toMatrix_diagonal, toMatrix_diagonal, Matrix.diagonal_mul_diagonal, ← Matrix.diagonal_one]
      refine congrArg Matrix.diagonal (funext fun j => ?_)
      rw [Vec.map, Vec.getElem_ofFn, mul_inv_cancel₀ (hd j)]
    -- Both are inverses of the same matrix, one from each side.
    refine congrArg some (toMatrix_injective ?_)
    refine left_inv_eq_right_inv (h'.inverse_mul (hrank.trans hfull)) ?_
    rw [toMatrix_mul, toMatrix_mul, Matrix.mul_assoc, ← Matrix.mul_assoc _ _ (Mat.toMatrix _), hundo,
      Matrix.one_mul]
    exact mul_eq_one_comm.mp (h.inverse_mul hfull)

theorem exists_normalMatrix_mul_scaling_iff (habs : 0 ≤ t.absolute) (hrel : 0 ≤ t.relative)
    (a : Mat K 4 4) {k : K} (hk : k ≠ 0) :
    (∃ normal, (a * scaling (.splat k)).normalMatrix t = .ok normal) ↔
      ∃ normal, a.normalMatrix t = .ok normal := by
  have hd : ∀ j : Fin 3, (Vec.splat k : Vec K 3)[j] ≠ 0 := fun j => by
    rwa [Vec.splat, Vec.getElem_ofFn]
  rw [exists_normalMatrix_iff, exists_normalMatrix_iff, upperLeft_mul_scaling,
    inverse_mul_diagonal habs hrel _ hd, Option.isSome_map]

/-- **A matrix is judged by its shape.** Over an ordered field and under any tolerance, columns
multiplied by factors other than zero leave the rank, multiply the determinant by the
product of the factors, and divide the rows of the inverse by them: there is an inverse
exactly when there was one. So whether a model has a normal matrix does not change when it
is scaled uniformly. -/
theorem eliminate_mul_diagonal (habs : 0 ≤ t.absolute) (hrel : 0 ≤ t.relative) (m : Mat K n n)
    (hd : ∀ j : Fin n, d[j] ≠ 0) :
    ((m * diagonal d).eliminate t).rank = (m.eliminate t).rank ∧
    ((m * diagonal d).eliminate t).determinant = (∏ j : Fin n, d[j]) * (m.eliminate t).determinant ∧
    ((m * diagonal d).eliminate t).inverse =
      (m.eliminate t).inverse.map (diagonal (d.map fun x => x⁻¹) * ·) ∧
    ∀ k : K, k ≠ 0 →
      (∀ a : Mat K 4 4, (∃ normal, (a * scaling (.splat k)).normalMatrix t = .ok normal) ↔
        ∃ normal, a.normalMatrix t = .ok normal) ∧
      ∀ position rotation scale : Vec K 3,
        (∃ normal, (model position rotation (scale * k)).normalMatrix t = .ok normal) ↔
          ∃ normal, (model position rotation scale).normalMatrix t = .ok normal := by
  refine ⟨rank_mul_diagonal t m hd, determinant_mul_diagonal habs hrel m hd,
    inverse_mul_diagonal habs hrel m hd, fun k hk => ⟨fun a => ?_, fun position rotation scale => ?_⟩⟩
  · exact exists_normalMatrix_mul_scaling_iff habs hrel a hk
  · rw [model_mul]
    exact exists_normalMatrix_mul_scaling_iff habs hrel _ hk

/-- A matrix with an inverse, its columns made a thousand times smaller and three times larger
with the sign turned, and a cube a millionth in size, under a tolerance of one per cent. -/
theorem eliminate_mul_diagonal_tiny :
    ∃ (_ : FieldFunctions ℚ) (t : Tolerance ℚ) (m i : Mat ℚ 2 2) (d : Vec ℚ 2),
      t = ⟨1 / 100, 1 / 100⟩ ∧ d = .of2 (1 / 1000) (-3) ∧ m.eliminate t = ⟨2, -2, some i⟩ ∧
      ((m * diagonal d).eliminate t).rank = 2 ∧
      ((m * diagonal d).eliminate t).determinant = (∏ j : Fin 2, d[j]) * -2 ∧
      ((m * diagonal d).eliminate t).inverse = some (diagonal (d.map fun x => x⁻¹) * i) ∧
      ∃ normal, (model .zero .zero ((.splat 1 : Vec ℚ 3) * (1 / 1000000 : ℚ))).normalMatrix t =
        .ok normal := by
  let functions : FieldFunctions ℚ := .arithmetic
  let t : Tolerance ℚ := ⟨1 / 100, 1 / 100⟩
  let m : Mat ℚ 2 2 := ⟨.of2 (.of2 0 1) (.of2 2 0)⟩
  let i : Mat ℚ 2 2 := ⟨.of2 (.of2 0 (1 / 2)) (.of2 1 0)⟩
  let d : Vec ℚ 2 := .of2 (1 / 1000) (-3)
  have hm : m.eliminate t = ⟨2, -2, some i⟩ := by decide +kernel
  have hd : ∀ j : Fin 2, d[j] ≠ 0 := by decide +kernel
  have hcube : ((model .zero .zero (.splat 1) : Mat ℚ 4 4).normalMatrix t).toOption.isSome := by
    decide +kernel
  obtain ⟨hrank, hdet, hinv, hmodels⟩ :=
    eliminate_mul_diagonal (t := t) (by decide +kernel) (by decide +kernel) m hd
  rw [hm] at hrank hdet hinv
  refine ⟨functions, t, m, i, d, rfl, rfl, hm, hrank, hdet, hinv, ?_⟩
  refine ((hmodels (1 / 1000000) (by norm_num)).2 _ _ _).mpr ?_
  cases hnormal : (model .zero .zero (.splat 1) : Mat ℚ 4 4).normalMatrix t with
  | error _ => simp [hnormal, Except.toOption] at hcube
  | ok normal => exact ⟨normal, rfl⟩

end Mat

end Field

end SceneEngine
