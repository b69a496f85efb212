/-
Elimination without a tolerance misses nothing.

With both bounds at zero only a zero is negligible, next to any column and to a column of
zeros alike. The pivot tried is the largest entry that is left of its column, so a column
is passed over only when nothing is left of it. From column to column, then, the rows that
have no pivot yet are zero wherever a column is done (`Cleared`), and in the end they are
zero throughout: there is nothing in the rank beyond the pivots.
-/
import SceneEngine.Proofs.Mat.Elimination

namespace SceneEngine

open scoped Exact

section Field

variable {K : Type} [Field K] [LinearOrder K] [FieldFunctions K] {n : Nat}

namespace Elimination

/-! ## The pivot tried -/

/-- No entry at or below the first row looked at is larger than the pivot tried. -/
theorem abs_le_pivotRow (work : Mat K n n) (j : Fin n) {first i : Fin n} (hi : first ≤ i) :
    |work[i][j]| ≤ |work[pivotRow work j first][j]| := by
  -- The scan keeps the largest of the entries it has seen, and begins with the first.
  have hscan : ∀ (l : List (Fin n)) (best : Fin n),
      let last := l.foldl (fun best i =>
        if first < i ∧ Scalar.abs work[best][j] < Scalar.abs work[i][j] then i else best) best
      |work[best][j]| ≤ |work[last][j]| ∧
        ∀ i ∈ l, first < i → |work[i][j]| ≤ |work[last][j]| := by
    intro l
    induction l with
    | nil => exact fun best => ⟨le_refl _, by simp⟩
    | cons k rest ih =>
      intro best
      rw [List.foldl_cons]
      split
      · next hlt =>
        obtain ⟨hk, hrest⟩ := ih k
        exact ⟨(le_of_lt hlt.2 : |work[best][j]| ≤ |work[k][j]|).trans hk,
          List.forall_mem_cons.mpr ⟨fun _ => hk, hrest⟩⟩
      · next hnot =>
        obtain ⟨hbest, hrest⟩ := ih best
        have hk : first < k → |work[k][j]| ≤ |work[best][j]| := fun hfirst =>
          not_lt.mp fun hlt => hnot ⟨hfirst, hlt⟩
        exact ⟨hbest, List.forall_mem_cons.mpr ⟨fun hfirst => (hk hfirst).trans hbest, hrest⟩⟩
  obtain ⟨hbest, hall⟩ := hscan (List.finRange n) first
  rcases eq_or_lt_of_le hi with rfl | hlt
  · exact hbest
  · exact hall i (List.mem_finRange i) hlt

variable [IsStrictOrderedRing K]

/-- Without a tolerance only a zero is negligible, whatever the column. -/
theorem isNegligible_zero_iff {x scale : K} :
    (⟨0, 0⟩ : Tolerance K).isNegligible x scale = true ↔ x = 0 := by
  have hle : |x| ≤ 0 ↔ x = 0 := abs_nonpos_iff
  simp only [Tolerance.isNegligible]
  split
  · rw [decide_eq_true_iff]
    exact hle
  · rw [decide_eq_true_iff, zero_mul]
    exact hle

/-! ## Rows without a pivot -/

variable {m : Mat K n n} {s : Progress K n} {j : Fin n} {rest : List (Fin n)}

/-- The rows that have no pivot yet are zero in every column that is done. -/
def Cleared (rest : List (Fin n)) (s : Progress K n) : Prop :=
  ∀ i : Fin n, s.rank ≤ i.val → ∀ c, c ∉ rest → s.work[i][c] = 0

omit [IsStrictOrderedRing K] in
theorem Cleared.reduceColumn {best : Fin n} (h : Cleared (j :: rest) s) (hr : s.rank < n)
    (hbest : s.rank ≤ best.val) (hpivot : s.work[best][j] ≠ 0) :
    Cleared rest (reduceColumn s j ⟨s.rank, hr⟩ best) := by
  intro i hi c hc
  have hi : s.rank + 1 ≤ i.val := hi
  have hne : i ≠ ⟨s.rank, hr⟩ := fun heq => by simp [heq] at hi
  rw [getElem_reduceColumn, if_neg hne]
  by_cases hcj : c = j
  · -- The column that is reduced: each entry less itself.
    rw [hcj, div_self hpivot, mul_one, sub_self]
  · -- A column done before: the rows exchanged had no pivot either.
    have hdone : c ∉ j :: rest := by simp [hcj, hc]
    have hswap : s.rank ≤ (Equiv.swap best ⟨s.rank, hr⟩ i).val := by
      rw [Equiv.swap_apply_def]
      split_ifs
      · exact le_refl _
      · omega
    rw [h _ hswap c hdone, h best hbest c hdone, zero_div, mul_zero, sub_zero]

theorem Cleared.step (h : Cleared (j :: rest) s) : Cleared rest (step ⟨0, 0⟩ m j s) := by
  unfold Elimination.step
  split
  · next hr =>
    simp only
    have hbest : s.rank ≤ (pivotRow s.work j ⟨s.rank, hr⟩).val := le_pivotRow s.work j ⟨s.rank, hr⟩
    split
    · next hneg =>
      -- Nothing is left of the column, since nothing is left of its largest entry.
      rw [isNegligible_zero_iff] at hneg
      intro i hi c hc
      by_cases hcj : c = j
      · have hmax : |s.work[i][j]| ≤ |s.work[pivotRow s.work j ⟨s.rank, hr⟩][j]| :=
          abs_le_pivotRow s.work j hi
        rw [hneg, abs_zero] at hmax
        rw [hcj]
        exact abs_nonpos_iff.mp hmax
      · exact h i hi c (by simp [hcj, hc])
    · next hneg =>
      rw [isNegligible_zero_iff] at hneg
      exact h.reduceColumn hr hbest hneg
  · next hr =>
    -- Every row has its pivot.
    intro i hi
    omega

theorem cleared_run (m : Mat K n n) : Cleared [] (run ⟨0, 0⟩ m) :=
  run_induction (fun _ _ c hc => absurd (List.mem_finRange c) hc) fun _ _ _ _ h => h.step

omit [IsStrictOrderedRing K] in
/-- Rows of zeros count for nothing in the rank. -/
theorem Cleared.rank_le (h : Cleared [] s) (hr : s.rank ≤ n) : s.work.toMatrix.rank ≤ s.rank := by
  have hsupport : Function.support s.work.toMatrix.row ⊆
      (Finset.univ.filter fun i : Fin n => i.val < s.rank : Finset (Fin n)) := by
    intro i hi
    rw [Finset.coe_filter_univ, Set.mem_ofPred_eq]
    by_contra hnot
    exact hi (funext fun c => h i (Nat.le_of_not_lt hnot) c List.not_mem_nil)
  calc s.work.toMatrix.rank ≤ (Finset.univ.filter fun i : Fin n => i.val < s.rank).card :=
        Matrix.rank_le_card_of_support_subset _ _ hsupport
    _ = s.rank := by rw [Fin.card_filter_val_lt, Nat.min_eq_right hr]

/-- Without a tolerance there are as many pivots as the rank says. -/
theorem rank_run (m : Mat K n n) : (run ⟨0, 0⟩ m).rank = m.toMatrix.rank := by
  have h := Reduces.run (t := ⟨0, 0⟩) (le_refl 0) (le_refl 0) m
  have hdet : (run ⟨0, 0⟩ m).inverse.toMatrix.det ≠ 0 := left_ne_zero_of_mul_eq_one h.det
  refine Nat.le_antisymm h.le_rank ?_
  calc m.toMatrix.rank = ((run ⟨0, 0⟩ m).inverse.toMatrix * m.toMatrix).rank :=
        (Matrix.rank_mul_eq_right_of_det_ne_zero _ _ hdet).symm
    _ = (run ⟨0, 0⟩ m).work.toMatrix.rank := by rw [h.work]
    _ ≤ (run ⟨0, 0⟩ m).rank := (cleared_run m).rank_le h.rank_le

end Elimination

/-! ## Rank, determinant and inverse -/

omit [LinearOrder K] [FieldFunctions K] in
/-- The rank is the largest number of independent rows. -/
theorem isGreatest_rank (a : Matrix (Fin n) (Fin n) K) :
    IsGreatest {k | ∃ rows : Finset (Fin n), rows.card = k ∧ LinearIndepOn K a.row rows} a.rank := by
  have hspan : ∀ rows : Finset (Fin n), LinearIndepOn K a.row rows →
      rows.card = Module.finrank K (Submodule.span K (a.row '' rows)) := by
    intro rows hind
    rw [Set.image_eq_range, finrank_span_eq_card hind]
    exact (Fintype.card_coe rows).symm
  constructor
  · obtain ⟨rows, _, _, hall, hind⟩ := exists_linearIndepOn_extension
      (linearIndepOn_empty K a.row) (Set.empty_subset Set.univ)
    rw [Set.image_univ] at hall
    -- The rows chosen span what all rows do.
    have hsame : Submodule.span K (a.row '' rows) = Submodule.span K (Set.range a.row) :=
      le_antisymm (Submodule.span_mono (Set.image_subset_range _ _)) (Submodule.span_le.mpr hall)
    have hrows : (rows.toFinite.toFinset : Set (Fin n)) = rows := Set.Finite.coe_toFinset _
    rw [← hrows] at hind hsame
    refine ⟨rows.toFinite.toFinset, ?_, hind⟩
    rw [hspan _ hind, hsame, Matrix.rank_eq_finrank_span_row]
  · rintro k ⟨rows, rfl, hind⟩
    rw [hspan rows hind, Matrix.rank_eq_finrank_span_row]
    exact Submodule.finrank_mono (Submodule.span_mono (Set.image_subset_range _ _))

namespace Mat

variable [IsStrictOrderedRing K]

/-- **Elimination without a tolerance is exact.** Over an ordered field and with both bounds
at zero, the rank returned is the largest number of independent rows, the determinant is
that of the matrix, singular or not, and an inverse is returned exactly when the
determinant is not zero. -/
theorem eliminate_exact (m : Mat K n n) :
    (m.eliminate ⟨0, 0⟩).rank = m.toMatrix.rank ∧
    IsGreatest {k | ∃ rows : Finset (Fin n), rows.card = k ∧ LinearIndepOn K m.toMatrix.row rows}
      (m.eliminate ⟨0, 0⟩).rank ∧
    (m.eliminate ⟨0, 0⟩).determinant = m.toMatrix.det ∧
    ((∃ i, (m.eliminate ⟨0, 0⟩).inverse = some i) ↔ m.toMatrix.det ≠ 0) := by
  have h := Elimination.Reduces.run (t := ⟨0, 0⟩) (le_refl 0) (le_refl 0) m
  have hrank := Elimination.rank_run m
  have hgreatest := isGreatest_rank m.toMatrix
  rw [← hrank] at hgreatest
  unfold eliminate
  by_cases hr : (Elimination.run ⟨0, 0⟩ m).rank < n
  · have hdet : m.toMatrix.det = 0 := by
      by_contra hne
      have hfull := Matrix.rank_of_det_ne_zero hne
      rw [← hrank, Fintype.card_fin] at hfull
      omega
    simp only [if_pos hr]
    exact ⟨hrank, hgreatest, hdet.symm, by simp [hdet]⟩
  · have hfull : (Elimination.run ⟨0, 0⟩ m).rank = n :=
      Nat.le_antisymm h.rank_le (Nat.le_of_not_lt hr)
    have hdet := h.det_eq hfull
    simp only [if_neg hr]
    refine ⟨hrank, hgreatest, hdet, fun _ => ?_, fun _ => ⟨_, rfl⟩⟩
    rw [← hdet]
    exact right_ne_zero_of_mul_eq_one h.det

/-- Two rows that depend on one another, a column of zeros before them, and a first pivot that
is not in the first row. -/
theorem eliminate_exact_dependent :
    ∃ (_ : FieldFunctions ℚ) (m : Mat ℚ 3 3), (m.eliminate ⟨0, 0⟩).rank = 2 ∧
      m.toMatrix.rank = 2 ∧ m.toMatrix.det = 0 ∧ (m.eliminate ⟨0, 0⟩).inverse = none := by
  let functions : FieldFunctions ℚ := .arithmetic
  let m : Mat ℚ 3 3 := ⟨.of3 (.of3 0 0 5) (.of3 0 1 2) (.of3 0 2 4)⟩
  have hfacts : m.eliminate ⟨0, 0⟩ = ⟨2, 0, none⟩ := by decide +kernel
  obtain ⟨hrank, _, hdet, _⟩ := eliminate_exact m
  rw [hfacts] at hrank hdet
  exact ⟨functions, m, by rw [hfacts], hrank.symm, hdet.symm, by rw [hfacts]⟩

end Mat

end Field

end SceneEngine
