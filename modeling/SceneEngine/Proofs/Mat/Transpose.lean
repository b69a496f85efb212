/-
Transposing in place gives the transpose.

An exchange across the diagonal undoes itself, so a loop over exchanges is right when it
comes to each pair of entries once. The entries at `(a, b)` and `(b, a)` are those of the
row `min a b` and the column `max a b`: the inner loop has exchanged them when it has been at
that column in that row, the outer loop when it has been at that row.
-/
import Mathlib.Order.Fin.Basic
import Mathlib.Order.MinMax
import SceneEngine.Mat.Affine

namespace SceneEngine.Mat

variable {α : Type} {n : Nat}

theorem getElem_set (m : Mat α n n) (i j : Fin n) (x : α) (a b : Fin n) :
    (m.set i j x)[a][b] = if a = i ∧ b = j then x else m[a][b] := by
  simp only [Mat.set, getElem_ofRows]
  split
  · next ha => simp only [Vec.set, Vec.getElem_ofFn, ha, true_and]
  · next ha => exact (if_neg fun h => ha h.1).symm

/-- An exchange across the diagonal flips the two entries and no other. -/
theorem getElem_swapEntries (m : Mat α n n) {i j : Fin n} (h : i < j) (a b : Fin n) :
    (m.swapEntries i j)[a][b] = if min a b = i ∧ max a b = j then m[b][a] else m[a][b] := by
  have hplace : min a b = i ∧ max a b = j ↔ (a = i ∧ b = j) ∨ (a = j ∧ b = i) := by
    rcases le_total a b with hab | hab
    · rw [min_eq_left hab, max_eq_right hab]
      exact ⟨.inl, fun hor => hor.resolve_right fun hji => not_le_of_gt h (hji.1 ▸ hji.2 ▸ hab)⟩
    · rw [min_eq_right hab, max_eq_left hab, and_comm]
      exact ⟨.inr, fun hor => hor.resolve_left fun hij => not_le_of_gt h (hij.1 ▸ hij.2 ▸ hab)⟩
  simp only [swapEntries, getElem_set, hplace]
  by_cases hji : a = j ∧ b = i
  · rw [if_pos hji, if_pos (.inr hji), hji.1, hji.2]
  by_cases hij : a = i ∧ b = j
  · rw [if_neg hji, if_pos hij, if_pos (.inl hij), hij.1, hij.2]
  · rw [if_neg hji, if_neg hij, if_neg (fun hor => hor.elim hij hji)]

/-- The inner loop, over some columns of row `i`. -/
theorem getElem_flipRow (i : Fin n) {columns : List (Fin n)} (h : columns.Nodup) (m : Mat α n n)
    (a b : Fin n) :
    (columns.foldl (fun m j => if i < j then m.swapEntries i j else m) m)[a][b] =
      if min a b = i ∧ i < max a b ∧ max a b ∈ columns then m[b][a] else m[a][b] := by
  induction columns generalizing m with
  | nil => simp
  | cons j rest ih =>
    obtain ⟨hj, hrest⟩ := List.nodup_cons.mp h
    rw [List.foldl_cons, ih hrest]
    by_cases hij : i < j
    · rw [if_pos hij, getElem_swapEntries m hij, getElem_swapEntries m hij, min_comm b a, max_comm b a]
      by_cases hmax : max a b = j
      · -- Column `j` comes up once, here.
        simp [hmax, hj, hij]
      · simp [hmax]
    · rw [if_neg hij]
      by_cases hmax : max a b = j
      · simp [hmax, hj, hij]
      · simp [hmax]

/-- The outer loop, over some rows. -/
theorem getElem_flipRows {rows : List (Fin n)} (h : rows.Nodup) (m : Mat α n n) (a b : Fin n) :
    (rows.foldl (fun m i => (List.finRange n).foldl
      (fun m j => if i < j then m.swapEntries i j else m) m) m)[a][b] =
      if min a b ∈ rows ∧ min a b < max a b then m[b][a] else m[a][b] := by
  induction rows generalizing m with
  | nil => simp
  | cons i rest ih =>
    obtain ⟨hi, hrest⟩ := List.nodup_cons.mp h
    have hall := List.nodup_finRange n
    rw [List.foldl_cons, ih hrest, getElem_flipRow i hall, getElem_flipRow i hall, min_comm b a,
      max_comm b a]
    by_cases hmin : min a b = i
    · -- Row `i` comes up once, here.
      simp [hmin, hi]
    · simp [hmin]

theorem transposeInPlace_eq (m : Mat α n n) : m.transposeInPlace = m.transpose := by
  ext a b
  rw [transposeInPlace, getElem_flipRows (List.nodup_finRange n), transpose, getElem_ofFn]
  by_cases hab : a = b
  · rw [hab, ite_self]
  · rw [if_pos ⟨List.mem_finRange _, min_lt_max.mpr hab⟩]

theorem normalMatrix_eq_ok_iff {α ω : Type} [Scalar α] [Scalar ω] [Widening α ω] {t : Tolerance ω}
    {m : Mat α 4 4} {normal : Mat α 3 3} : m.normalMatrix t = .ok normal ↔
      ∃ i, m.upperLeft.inverse t = .ok i ∧ normal = i.transpose := by
  unfold normalMatrix
  cases m.upperLeft.inverse t with
  | error e => simp [Except.map]
  | ok i => simp [Except.map, transposeInPlace_eq, eq_comm]

end SceneEngine.Mat
