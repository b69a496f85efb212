/-
How matrices lie in memory.

A matrix lies row by row (`getElem?_entries`), so its transpose lies column by column, and a
matrix flipped twice is as it was. The two transpositions are one function, so it does not
matter which of them has put a matrix into that order: columns copied out, the columns of a
draw and those of a normal matrix, which is flipped in place, all have one layout.
-/
import SceneEngine.Frame
import SceneEngine.Mat.Affine
import SceneEngine.Proofs.Mat.Transpose

namespace SceneEngine

namespace Mat

variable {α : Type} {r c n : Nat}

/-! ## Row by row -/

/-- The entries in the order in which they lie in memory. -/
def entries (m : Mat α r c) : List α := m.toList.flatten

/-- In lists of one length, laid one after the other, the places of a list begin at a multiple of
that length. -/
theorem getElem?_flatten_of_length {lists : List (List α)} (hlen : ∀ l ∈ lists, l.length = c)
    (i : Nat) {j : Nat} (hj : j < c) : lists.flatten[i * c + j]? = lists[i]?.bind (·[j]?) := by
  induction lists generalizing i with
  | nil => simp
  | cons l rest ih =>
    have hl : l.length = c := hlen l (by simp)
    have hrest := fun k hk => hlen k (List.mem_cons_of_mem l hk)
    cases i with
    | zero =>
      rw [List.flatten_cons, Nat.zero_mul, Nat.zero_add, List.getElem?_append_left (by omega)]
      simp
    | succ i =>
      have hplace : (i + 1) * c + j - l.length = i * c + j := by
        rw [hl, Nat.succ_mul]
        omega
      rw [List.flatten_cons, List.getElem?_append_right (by rw [hl, Nat.succ_mul]; omega), hplace,
        ih hrest i, List.getElem?_cons_succ]

theorem getElem?_entries (m : Mat α r c) (i : Fin r) (j : Fin c) :
    m.entries[(i : Nat) * c + j]? = some m[i][j] := by
  have hlen : ∀ l ∈ m.toList, l.length = c := by
    intro l hl
    obtain ⟨row, -, rfl⟩ := List.mem_map.mp hl
    exact Vector.length_toList
  have hrow : m.toList[(i : Nat)]? = some m[i].toList := by
    rw [toList, List.getElem?_map, Vec.toList, Vector.getElem?_toList,
      Vector.getElem?_eq_getElem i.isLt]
    rfl
  have hentry : m[i].toList[(j : Nat)]? = some m[i][j] := by
    rw [Vec.toList, Vector.getElem?_toList, Vector.getElem?_eq_getElem j.isLt]
    rfl
  rw [entries, getElem?_flatten_of_length hlen i j.isLt, hrow, Option.bind_some, hentry]

/-! ## Column by column -/

theorem getElem_transpose (m : Mat α r c) (i : Fin r) (j : Fin c) : m.transpose[j][i] = m[i][j] :=
  getElem_ofFn _ j i

theorem transpose_transpose (m : Mat α r c) : m.transpose.transpose = m := by
  ext i j
  rw [getElem_transpose, getElem_transpose]

/-- A transpose lies column by column. -/
theorem getElem?_entries_transpose (m : Mat α r c) (i : Fin r) (j : Fin c) :
    m.transpose.entries[(j : Nat) * r + i]? = some m[i][j] := by
  rw [getElem?_entries, getElem_transpose]

/-- The columns of a normal matrix are the rows of the inverse it is made from. -/
theorem map_transpose_normalMatrix {ω : Type} [Scalar α] [Scalar ω] [Widening α ω] (t : Tolerance ω)
    (m : Mat α 4 4) : (m.normalMatrix t).map transpose = m.upperLeft.inverse t := by
  rw [normalMatrix]
  cases m.upperLeft.inverse t with
  | error e => rfl
  | ok i => exact congrArg Except.ok (by rw [transposeInPlace_eq, transpose_transpose])

end Mat

namespace Packet

theorem getElem?_entries_model (p : Packet) (i j : Fin 4) :
    p.instanceData.model.entries[(j : Nat) * 4 + i]? = some p.model[i][j] :=
  p.model.getElem?_entries_transpose i j

/-- A column of the normal matrix, padded. -/
theorem getElem_normal (p : Packet) (j : Fin 3) : p.instanceData.normal[j] =
    .of4 p.normal[(0 : Fin 3)][j] p.normal[(1 : Fin 3)][j] p.normal[(2 : Fin 3)][j] 0 := by
  have hcolumn : ∀ i : Fin 3, p.normal.transpose[j][i] = p.normal[i][j] := fun i =>
    p.normal.getElem_transpose i j
  rw [instanceData, Mat.getElem_ofRows, ← hcolumn 0, ← hcolumn 1, ← hcolumn 2]
  rfl

theorem getElem?_entries_normal (p : Packet) (i j : Fin 3) :
    p.instanceData.normal.entries[(j : Nat) * 4 + i]? = some p.normal[i][j] := by
  have h := p.instanceData.normal.getElem?_entries j i.castSucc
  rw [getElem_normal, Fin.val_castSucc] at h
  rw [h]
  match i with
  | 0 => rfl
  | 1 => rfl
  | 2 => rfl

theorem getElem?_entries_padding (p : Packet) (j : Fin 3) :
    p.instanceData.normal.entries[(j : Nat) * 4 + 3]? = some 0 := by
  have h := p.instanceData.normal.getElem?_entries j 3
  rw [getElem_normal] at h
  exact h

end Packet

/-- **There is one layout.** Flipping in place gives the transpose, a second time the matrix
itself, and so do two transposes. What is copied out as columns, the model and the normal
matrix of a draw, and what a normal matrix is made from lie the same way: the entry of row `i`
and column `j` lies `i` places into column `j`. -/
theorem Mat.transposes_agree {α β ω : Type} {n r c : Nat} [Scalar β] [Scalar ω] [Widening β ω]
    (square : Mat α n n) (m : Mat α r c) (t : Tolerance ω) (model : Mat β 4 4) (p : Packet) :
    square.transposeInPlace = square.transpose ∧
    square.transposeInPlace.transposeInPlace = square ∧
    m.transpose.transpose = m ∧
    (∀ (i : Fin r) (j : Fin c), m.transpose.entries[(j : Nat) * r + i]? = some m[i][j]) ∧
    (model.normalMatrix t).map transpose = model.upperLeft.inverse t ∧
    (∀ i j : Fin 4, p.instanceData.model.entries[(j : Nat) * 4 + i]? = some p.model[i][j]) ∧
    (∀ i j : Fin 3, p.instanceData.normal.entries[(j : Nat) * 4 + i]? = some p.normal[i][j]) ∧
    ∀ j : Fin 3, p.instanceData.normal.entries[(j : Nat) * 4 + 3]? = some 0 := by
  have htwice : square.transposeInPlace.transposeInPlace = square := by
    rw [transposeInPlace_eq, transposeInPlace_eq, transpose_transpose]
  exact ⟨transposeInPlace_eq square, htwice, transpose_transpose m, m.getElem?_entries_transpose,
    map_transpose_normalMatrix t model, p.getElem?_entries_model, p.getElem?_entries_normal,
    p.getElem?_entries_padding⟩

end SceneEngine
