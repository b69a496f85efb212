/-
Elimination without rounding finds what it says it finds.

One reduced column is one product from the left (`reducer`), the same for the reduced
input and for the identity beside it, and the sign-corrected pivot is what that product
takes from the determinant. So from column to column the inverse under way times the
input is the reduced input, and its determinant times the product of the pivots is one.
The columns of the pivots are unit columns in ascending order: they are independent,
whatever was passed over, and when there are as many as rows nothing but the identity
is left.

A tolerance enters in one place only: a pivot that is not negligible is not zero.
-/
import Mathlib.LinearAlgebra.Matrix.NonsingularInverse
import Mathlib.LinearAlgebra.Matrix.Permutation
import Mathlib.LinearAlgebra.Matrix.Rank
import Mathlib.Order.Preorder.Finite
import SceneEngine.Mat.Elimination
import SceneEngine.Proofs.Exact

namespace SceneEngine

namespace Mat

/-- The entries of a matrix, as a matrix of linear algebra. -/
def toMatrix {α : Type} {r c : Nat} (m : Mat α r c) : Matrix (Fin r) (Fin c) α :=
  .of fun i j => m[i][j]

@[simp] theorem toMatrix_apply {α : Type} {r c : Nat} (m : Mat α r c) (i : Fin r) (j : Fin c) :
    m.toMatrix i j = m[i][j] := rfl

theorem toMatrix_injective {α : Type} {r c : Nat} {m k : Mat α r c} (h : m.toMatrix = k.toMatrix) :
    m = k :=
  ext fun i j => congrFun (congrFun h i) j

/-! ## What is returned -/

section Returned

variable {α ω : Type} {n : Nat} [Scalar α] [Scalar ω] [Widening α ω] {t : Tolerance ω} {m i : Mat α n n}

theorem rank_eliminate : (m.eliminate t).rank = (Elimination.run t m).rank := by
  unfold eliminate
  dsimp only
  split <;> rfl

theorem eliminate_of_lt (h : (Elimination.run t m).rank < n) :
    m.eliminate t = ⟨(Elimination.run t m).rank, 0, none⟩ := if_pos h

/-- A run with a pivot in every column. -/
theorem eliminate_of_le (h : n ≤ (Elimination.run t m).rank) :
    m.eliminate t = ⟨(Elimination.run t m).rank, (Elimination.run t m).determinant,
      some (Elimination.run t m).inverse⟩ := if_neg (Nat.not_lt.mpr h)

theorem inverse_eliminate_eq_some_iff : (m.eliminate t).inverse = some i ↔
    n ≤ (Elimination.run t m).rank ∧ i = (Elimination.run t m).inverse := by
  rcases Nat.lt_or_ge (Elimination.run t m).rank n with h | h
  · simp [eliminate_of_lt h, Nat.not_le.mpr h]
  · simp [eliminate_of_le h, h, eq_comm]

theorem inverse_eq_ok_iff_some : m.inverse t = .ok i ↔ (m.eliminate t).inverse = some i := by
  unfold inverse
  cases h : (m.eliminate t).inverse <;> simp [h]

end Returned

end Mat

theorem Elimination.getElem_swapRows {α : Type} {n : Nat} (m : Mat α n n) (p q i j : Fin n) :
    (swapRows m p q)[i][j] = m[Equiv.swap p q i][j] := by
  simp only [swapRows, Mat.getElem_ofRows, Equiv.swap_apply_def]
  split_ifs <;> rfl

theorem Elimination.getElem_divideRow {α : Type} [Scalar α] {n : Nat} (m : Mat α n n) (p : Fin n)
    (pivot : α) (i j : Fin n) :
    (divideRow m p pivot)[i][j] = if i = p then m[i][j] / pivot else m[i][j] := by
  simp only [divideRow, Mat.getElem_ofRows]
  split
  · exact Vec.getElem_ofFn _ j
  · rfl

namespace Mat

variable {R : Type} [RingScalar R]

@[simp] theorem toMatrix_mul {r k c : Nat} (a : Mat R r k) (b : Mat R k c) :
    (a * b).toMatrix = a.toMatrix * b.toMatrix := by
  ext i j
  rw [Matrix.mul_apply, toMatrix_apply]
  exact (getElem_ofFn _ i j).trans (RingScalar.sum_eq _)

@[simp] theorem toMatrix_identity {n : Nat} : (identity : Mat R n n).toMatrix = 1 := by
  ext i j
  rw [Matrix.one_apply, toMatrix_apply]
  exact getElem_ofFn _ i j

end Mat

open scoped Exact

section Field

variable {K : Type} [Field K] [LinearOrder K] [FieldFunctions K] {n : Nat}

namespace Elimination

/-! ## Row operations, entry by entry -/

/-- A row with a zero factor is the same whether it is left out or not. -/
theorem getElem_clearRows (m : Mat K n n) (p : Fin n) (factor : Fin n → K) (i j : Fin n) :
    (clearRows m p factor)[i][j] = if i = p then m[i][j] else m[i][j] - factor i * m[p][j] := by
  simp only [clearRows, Mat.getElem_ofRows]
  split
  · rfl
  split
  · next hzero =>
    have hsame : m[i][j] - factor i * m[p][j] = m[i][j] := by
      rw [Exact.same_iff.mp hzero]
      simp
    exact hsame.symm
  · exact Vec.getElem_ofFn _ j

/-! ## Row operations as products -/

theorem toMatrix_swapRows (m : Mat K n n) (p q : Fin n) :
    (swapRows m p q).toMatrix = (Equiv.swap p q).permMatrix K * m.toMatrix := by
  rw [PEquiv.toMatrix_toPEquiv_mul]
  ext i j
  exact getElem_swapRows m p q i j

theorem toMatrix_divideRow (m : Mat K n n) (p : Fin n) (pivot : K) :
    (divideRow m p pivot).toMatrix =
      Matrix.diagonal (Function.update 1 p pivot⁻¹) * m.toMatrix := by
  ext i j
  rw [Matrix.diagonal_mul, Mat.toMatrix_apply, Mat.toMatrix_apply, getElem_divideRow]
  by_cases hi : i = p
  · rw [if_pos hi, hi, Function.update_self, div_eq_inv_mul]
  · rw [if_neg hi, Function.update_of_ne hi, Pi.one_apply, one_mul]

/-- Takes `factor i` times row `p` from every other row `i`. -/
def clearing (p : Fin n) (factor : Fin n → K) : Matrix (Fin n) (Fin n) K :=
  1 - Matrix.vecMulVec (Function.update factor p 0) (Pi.single p 1)

theorem toMatrix_clearRows (m : Mat K n n) (p : Fin n) (factor : Fin n → K) :
    (clearRows m p factor).toMatrix = clearing p factor * m.toMatrix := by
  ext i j
  rw [clearing, Matrix.sub_mul, Matrix.one_mul, Matrix.vecMulVec_mul, Matrix.single_one_vecMul,
    Matrix.sub_apply, Matrix.vecMulVec_apply, Mat.toMatrix_apply, getElem_clearRows]
  by_cases hi : i = p
  · simp [hi]
  · rw [if_neg hi, Function.update_of_ne hi]
    rfl

theorem det_clearing (p : Fin n) (factor : Fin n → K) : (clearing p factor).det = 1 := by
  have hp : -Function.update factor p 0 p = 0 := by simp
  rw [← Matrix.det_one (n := Fin n)]
  refine Matrix.det_eq_of_forall_row_eq_smul_add_const (fun i => -Function.update factor p 0 i) p hp
    fun i j => ?_
  rw [clearing, Matrix.sub_apply, Matrix.vecMulVec_apply, Matrix.one_apply (i := p), Pi.single_apply,
    sub_eq_add_neg, neg_mul]
  simp only [eq_comm]

/-- All that is done for one column: rows exchanged, the pivot's row divided, the other rows
cleared. -/
def reducer (work : Mat K n n) (j p best : Fin n) : Matrix (Fin n) (Fin n) K :=
  let divided := divideRow (swapRows work best p) p work[best][j]
  clearing p (fun i => divided[i][j]) *
    (Matrix.diagonal (Function.update 1 p work[best][j]⁻¹) * (Equiv.swap best p).permMatrix K)

theorem toMatrix_reduceColumn (s : Progress K n) (j p best : Fin n) :
    (reduceColumn s j p best).work.toMatrix = reducer s.work j p best * s.work.toMatrix ∧
    (reduceColumn s j p best).inverse.toMatrix = reducer s.work j p best * s.inverse.toMatrix := by
  simp only [reduceColumn, reducer, toMatrix_clearRows, toMatrix_divideRow, toMatrix_swapRows,
    Matrix.mul_assoc, and_self]

/-- The sign of the exchange and the pivot make up for what the determinant loses. -/
theorem det_reducer {work : Mat K n n} {j p best : Fin n} (h : work[best][j] ≠ 0) :
    (reducer work j p best).det * ((if best = p then 1 else -1) * work[best][j]) = 1 := by
  have hdiag : (Matrix.diagonal (Function.update (1 : Fin n → K) p work[best][j]⁻¹)).det =
      work[best][j]⁻¹ := by
    rw [Matrix.det_diagonal, Finset.prod_update_of_mem (Finset.mem_univ p)]
    simp
  rw [reducer, Matrix.det_mul, Matrix.det_mul, det_clearing, hdiag, Matrix.det_permutation,
    Equiv.Perm.sign_swap']
  split <;> simp [h]

/-- The entries once a column is reduced. -/
theorem getElem_reduceColumn (s : Progress K n) (j p best i c : Fin n) :
    (reduceColumn s j p best).work[i][c] =
      if i = p then s.work[best][c] / s.work[best][j]
      else s.work[Equiv.swap best p i][c] -
        s.work[Equiv.swap best p i][j] * (s.work[best][c] / s.work[best][j]) := by
  simp only [reduceColumn]
  rw [getElem_clearRows, getElem_divideRow, getElem_divideRow, getElem_divideRow, getElem_swapRows,
    getElem_swapRows, getElem_swapRows]
  by_cases hi : i = p <;> simp [hi]

/-! ## Unit columns -/

/-- Column `column k` has a one in row `k` and zeros elsewhere. -/
def UnitColumns {r : Nat} (m : Mat K n n) (column : Fin r → Fin n) : Prop :=
  ∀ (k : Fin r) (i : Fin n), m[i][column k] = if i.val = k.val then 1 else 0

theorem UnitColumns.reduceColumn {s : Progress K n} {column : Fin s.rank → Fin n} {j best : Fin n}
    (h : UnitColumns s.work column) (hr : s.rank < n) (hbest : s.rank ≤ best.val)
    (hpivot : s.work[best][j] ≠ 0) :
    UnitColumns (reduceColumn s j ⟨s.rank, hr⟩ best).work
      (Fin.snoc column j : Fin (s.rank + 1) → Fin n) := by
  intro k i
  rw [getElem_reduceColumn]
  refine Fin.lastCases ?_ (fun k => ?_) k
  · -- The new column: the pivot over itself, and each other entry less itself.
    rw [Fin.snoc_last, div_self hpivot, mul_one, sub_self]
    simp [Fin.ext_iff]
  · -- A column that was done before has zeros in both rows that are exchanged.
    have hzero : ∀ i : Fin n, s.rank ≤ i.val → s.work[i][column k] = 0 := fun i hi => by
      rw [h k i, if_neg (by omega)]
    have hlast : ¬ s.rank = k.val := by omega
    rw [Fin.snoc_castSucc, hzero best hbest, zero_div, mul_zero, sub_zero]
    by_cases hi : i = ⟨s.rank, hr⟩
    · simp [hi, hlast]
    by_cases hib : i = best
    · rw [if_neg hi, hib, Equiv.swap_apply_left, hzero ⟨s.rank, hr⟩ (Nat.le_refl _), Fin.val_castSucc,
        if_neg (by omega)]
    · rw [if_neg hi, Equiv.swap_apply_of_ne_of_ne hib hi, h k i, Fin.val_castSucc]

theorem UnitColumns.le_rank {r : Nat} {m : Mat K n n} {column : Fin r → Fin n} (hr : r ≤ n)
    (h : UnitColumns m column) : r ≤ m.toMatrix.rank := by
  have hcol : m.toMatrix.col ∘ column = Pi.basisFun K (Fin n) ∘ Fin.castLE hr := by
    ext k i
    simp only [Function.comp_apply, Matrix.col_apply, Mat.toMatrix_apply, h k i, Pi.basisFun_apply,
      Pi.single_apply, Fin.ext_iff, Fin.val_castLE]
  have hind : LinearIndependent K (m.toMatrix.col ∘ column) := by
    rw [hcol]
    exact (Pi.basisFun K (Fin n)).linearIndependent.comp _ (Fin.castLE_injective hr)
  calc r = Module.finrank K (Submodule.span K (Set.range (m.toMatrix.col ∘ column))) := by
        rw [finrank_span_eq_card hind, Fintype.card_fin]
    _ ≤ Module.finrank K (Submodule.span K (Set.range m.toMatrix.col)) :=
        Submodule.finrank_mono (Submodule.span_mono (Set.range_comp_subset_range _ _))
    _ = m.toMatrix.rank := (Matrix.rank_eq_finrank_span_cols _).symm

theorem UnitColumns.eq_one {m : Mat K n n} {column : Fin n → Fin n}
    (hmono : StrictMono column) (h : UnitColumns m column) : m.toMatrix = 1 := by
  ext i j
  have := h j i
  rw [hmono.apply_eq] at this
  rw [Mat.toMatrix_apply, this, Matrix.one_apply]
  simp [Fin.ext_iff]

/-! ## What an elimination keeps -/

/-- An elimination of `m` under way, with the columns of `rest` still to come. -/
structure Reduces (m : Mat K n n) (rest : List (Fin n)) (s : Progress K n) : Prop where
  work : s.work.toMatrix = s.inverse.toMatrix * m.toMatrix
  det : s.inverse.toMatrix.det * s.determinant = 1
  rank_le : s.rank ≤ n
  /-- Each pivot has its column, in ascending order and all before those to come. -/
  columns : ∃ column : Fin s.rank → Fin n, StrictMono column ∧
    (∀ k, ∀ j ∈ rest, column k < j) ∧ UnitColumns s.work column

theorem Reduces.start (m : Mat K n n) (rest : List (Fin n)) :
    Reduces m rest { work := m, inverse := .identity, determinant := 1, rank := 0 } where
  work := by simp
  det := by simp
  rank_le := Nat.zero_le n
  columns := ⟨Fin.elim0, fun k => k.elim0, fun k => k.elim0, fun k => k.elim0⟩

variable {m : Mat K n n} {s : Progress K n} {j : Fin n} {rest : List (Fin n)}

theorem Reduces.pass (h : Reduces m (j :: rest) s) : Reduces m rest s := by
  obtain ⟨column, hmono, hlt, hunit⟩ := h.columns
  exact { h with columns := ⟨column, hmono, fun k i hi => hlt k i (List.mem_cons_of_mem j hi), hunit⟩ }

/-- The row a pivot is found in is at or below the first that is looked at. -/
theorem le_pivotRow (work : Mat K n n) (j first : Fin n) : first ≤ pivotRow work j first := by
  unfold pivotRow
  suffices ∀ (l : List (Fin n)) (best : Fin n), first ≤ best → first ≤ l.foldl (fun best i =>
      if first < i ∧ Scalar.abs work[best][j] < Scalar.abs work[i][j] then i else best) best from
    this _ first (le_refl first)
  intro l
  induction l with
  | nil => exact fun best hbest => hbest
  | cons i rest ih =>
    intro best hbest
    rw [List.foldl_cons]
    split
    · next hlt => exact ih i (le_of_lt hlt.1)
    · exact ih best hbest

section Columns

variable {r : Nat} {column : Fin r → Fin n}

/-- Columns in ascending order, and one more beyond them all. -/
theorem strictMono_snoc (h : StrictMono column) (hj : ∀ k, column k < j) :
    StrictMono (Fin.snoc column j : Fin (r + 1) → Fin n) := by
  intro a b hab
  induction b using Fin.lastCases with
  | last =>
    induction a using Fin.lastCases with
    | last => exact absurd hab (lt_irrefl _)
    | cast a => simpa using hj a
  | cast b =>
    induction a using Fin.lastCases with
    | last => exact absurd hab (not_lt_of_gt (Fin.castSucc_lt_last b))
    | cast a => simpa using h (Fin.castSucc_lt_castSucc_iff.mp hab)

theorem snoc_lt {i : Fin n} (hj : ∀ k, column k < j) (hi : j < i) (k : Fin (r + 1)) :
    (Fin.snoc column j : Fin (r + 1) → Fin n) k < i := by
  induction k using Fin.lastCases with
  | last => simpa using hi
  | cast k => simpa using (hj k).trans hi

end Columns

theorem Reduces.reduceColumn {best : Fin n} (h : Reduces m (j :: rest) s) (hrest : ∀ i ∈ rest, j < i)
    (hr : s.rank < n) (hbest : s.rank ≤ best.val) (hpivot : s.work[best][j] ≠ 0) :
    Reduces m rest (reduceColumn s j ⟨s.rank, hr⟩ best) := by
  obtain ⟨hwork, hinverse⟩ := toMatrix_reduceColumn s j ⟨s.rank, hr⟩ best
  obtain ⟨column, hmono, hlt, hunit⟩ := h.columns
  have hbefore : ∀ k, column k < j := fun k => hlt k j List.mem_cons_self
  constructor
  · rw [hwork, hinverse, h.work, Matrix.mul_assoc]
  · have hstep := det_reducer (p := ⟨s.rank, hr⟩) hpivot
    have hsplit : (Elimination.reduceColumn s j ⟨s.rank, hr⟩ best).determinant =
        (if best = ⟨s.rank, hr⟩ then 1 else -1) * s.work[best][j] * s.determinant := by
      simp only [Elimination.reduceColumn]
      split <;> ring
    calc (Elimination.reduceColumn s j ⟨s.rank, hr⟩ best).inverse.toMatrix.det *
          (Elimination.reduceColumn s j ⟨s.rank, hr⟩ best).determinant
        = (reducer s.work j ⟨s.rank, hr⟩ best).det *
            ((if best = ⟨s.rank, hr⟩ then 1 else -1) * s.work[best][j]) *
          (s.inverse.toMatrix.det * s.determinant) := by
          rw [hinverse, Matrix.det_mul, hsplit]
          ring
      _ = 1 := by rw [hstep, h.det, one_mul]
  · exact hr
  · exact ⟨Fin.snoc column j, strictMono_snoc hmono hbefore,
      fun k i hi => snoc_lt hbefore (hrest i hi) k, hunit.reduceColumn hr hbest hpivot⟩

/-- With a pivot for every column nothing is left but the identity. -/
theorem Reduces.inverse_mul (h : Reduces m rest s) (hr : s.rank = n) :
    s.inverse.toMatrix * m.toMatrix = 1 := by
  obtain ⟨column, hmono, _, hunit⟩ := h.columns
  rw [← h.work]
  have hcast : UnitColumns s.work (column ∘ Fin.cast hr.symm) := fun k i => hunit (Fin.cast hr.symm k) i
  exact hcast.eq_one (hmono.comp (Fin.cast_strictMono _))

/-- With a pivot for every column the product of the pivots is the determinant. -/
theorem Reduces.det_eq (h : Reduces m rest s) (hr : s.rank = n) : s.determinant = m.toMatrix.det := by
  have hdet := h.det
  have hprod : s.inverse.toMatrix.det * m.toMatrix.det = 1 := by
    rw [← Matrix.det_mul, h.inverse_mul hr, Matrix.det_one]
  exact mul_left_cancel₀ (left_ne_zero_of_mul_eq_one hdet) (hdet.trans hprod.symm)

theorem Reduces.le_rank (h : Reduces m rest s) : s.rank ≤ m.toMatrix.rank := by
  obtain ⟨column, _, _, hunit⟩ := h.columns
  calc s.rank ≤ s.work.toMatrix.rank := hunit.le_rank h.rank_le
    _ = (s.inverse.toMatrix * m.toMatrix).rank := by rw [h.work]
    _ ≤ m.toMatrix.rank := Matrix.rank_mul_le_right _ _

/-- What holds at the start and is kept from one column to the next holds at the end. -/
theorem run_induction {t : Tolerance K} {P : List (Fin n) → Progress K n → Prop}
    (start : P (List.finRange n) { work := m, inverse := .identity, determinant := 1, rank := 0 })
    (next : ∀ j rest s, (∀ i ∈ rest, j < i) → P (j :: rest) s → P rest (step t m j s)) :
    P [] (run t m) := by
  unfold run
  suffices ∀ (rest : List (Fin n)) (s : Progress K n), rest.Pairwise (· < ·) → P rest s →
      P [] (rest.foldl (fun s j => step t m j s) s) from
    this _ _ (List.pairwise_lt_finRange n) start
  intro rest
  induction rest with
  | nil => exact fun s _ h => h
  | cons j rest ih =>
    intro s hpw h
    obtain ⟨hj, hpw⟩ := List.pairwise_cons.mp hpw
    exact ih _ hpw (next j rest s hj h)

variable [IsStrictOrderedRing K] {t : Tolerance K}

/-- One column, reduced or passed over. -/
theorem Reduces.step (habs : 0 ≤ t.absolute) (hrel : 0 ≤ t.relative) (h : Reduces m (j :: rest) s)
    (hrest : ∀ i ∈ rest, j < i) : Reduces m rest (step t m j s) := by
  unfold Elimination.step
  split
  · next hr =>
    simp only
    split
    · exact h.pass
    · next hneg =>
      have hbest := le_pivotRow s.work j ⟨s.rank, hr⟩
      exact h.reduceColumn hrest hr hbest
        (Exact.ne_zero_of_not_negligible habs hrel (Bool.not_eq_true _ ▸ hneg))
  · exact h.pass

/-- All columns. -/
theorem Reduces.run (habs : 0 ≤ t.absolute) (hrel : 0 ≤ t.relative) (m : Mat K n n) :
    Reduces m [] (run t m) :=
  run_induction (.start m _) fun _ _ _ hrest h => h.step habs hrel hrest

end Elimination

namespace Mat

variable [IsStrictOrderedRing K]

/-- **Elimination is sound.** Over an ordered field and under any tolerance, an inverse that
is returned is one on both sides, with full rank and the determinant of the matrix;
without one the determinant is zero and the rank is not full; and the rank returned is
never more than the rank. -/
theorem eliminate_sound {t : Tolerance K} (habs : 0 ≤ t.absolute) (hrel : 0 ≤ t.relative)
    (m : Mat K n n) :
    (∀ i, (m.eliminate t).inverse = some i → m * i = identity ∧ i * m = identity ∧
      (m.eliminate t).rank = n ∧ (m.eliminate t).determinant = m.toMatrix.det) ∧
    ((m.eliminate t).inverse = none → (m.eliminate t).determinant = 0 ∧ (m.eliminate t).rank < n) ∧
    (m.eliminate t).rank ≤ m.toMatrix.rank := by
  have h := Elimination.Reduces.run habs hrel m
  unfold eliminate
  by_cases hr : (Elimination.run t m).rank < n
  · simp only [if_pos hr]
    exact ⟨nofun, fun _ => ⟨trivial, hr⟩, h.le_rank⟩
  · have hfull : (Elimination.run t m).rank = n := Nat.le_antisymm h.rank_le (Nat.le_of_not_lt hr)
    have hleft := h.inverse_mul hfull
    simp only [if_neg hr]
    refine ⟨fun i hi => ?_, nofun, h.le_rank⟩
    obtain rfl := Option.some.inj hi
    refine ⟨toMatrix_injective ?_, toMatrix_injective ?_, hfull, ?_⟩
    · rw [toMatrix_mul, toMatrix_identity]
      exact mul_eq_one_comm.mp hleft
    · rw [toMatrix_mul, toMatrix_identity]
      exact hleft
    · have hdet := h.det
      have hprod : (Elimination.run t m).inverse.toMatrix.det * m.toMatrix.det = 1 := by
        rw [← Matrix.det_mul, hleft, Matrix.det_one]
      exact mul_left_cancel₀ (left_ne_zero_of_mul_eq_one hdet) (hdet.trans hprod.symm)

/-- A matrix whose rows have to be exchanged before there is a first pivot. -/
theorem eliminate_sound_exchange :
    ∃ (_ : FieldFunctions ℚ) (m i : Mat ℚ 2 2), (m.eliminate ⟨1 / 100, 1 / 100⟩).inverse = some i ∧
      m * i = identity ∧ i * m = identity ∧ (m.eliminate ⟨1 / 100, 1 / 100⟩).rank = 2 ∧
      (m.eliminate ⟨1 / 100, 1 / 100⟩).determinant = m.toMatrix.det := by
  let functions : FieldFunctions ℚ := .arithmetic
  let m : Mat ℚ 2 2 := ⟨.of2 (.of2 0 1) (.of2 2 0)⟩
  let i : Mat ℚ 2 2 := ⟨.of2 (.of2 0 (1 / 2)) (.of2 1 0)⟩
  have hi : (m.eliminate ⟨1 / 100, 1 / 100⟩).inverse = some i := by decide +kernel
  have hsound := eliminate_sound (t := ⟨1 / 100, 1 / 100⟩) (by norm_num) (by norm_num) m
  exact ⟨functions, m, i, hi, hsound.1 i hi⟩

end Mat

end Field

end SceneEngine
