/-
Matrices of any shape, row by row.

A matrix acts on column vectors, so a displacement stands in the last column and
`a * b` applies `b` first.

Transposition is given twice: `Mat.transpose` builds the flipped matrix, and
`Mat.transposeInPlace` swaps the entries above the diagonal with those below it,
one pair after another.
-/
import SceneEngine.Vec

namespace SceneEngine

/-- A matrix with `r` rows and `c` columns. -/
structure Mat (α : Type) (r c : Nat) where
  rows : Vec (Vec α c) r
deriving DecidableEq

namespace Mat

variable {α : Type} {r c n : Nat}

instance : GetElem (Mat α r c) (Fin r) (Vec α c) fun _ _ => True where
  getElem m i _ := m.rows[i]

/-- The matrix with the given entries. -/
def ofFn (g : Fin r → Fin c → α) : Mat α r c := ⟨Vec.ofFn fun i => Vec.ofFn (g i)⟩

/-- The matrix with the given rows. -/
def ofRows (g : Fin r → Vec α c) : Mat α r c := ⟨Vec.ofFn g⟩

def ofRows4 (a b c d : Vec α 4) : Mat α 4 4 := ⟨Vec.of4 a b c d⟩

@[simp] theorem getElem_ofRows (g : Fin r → Vec α c) (i : Fin r) : (ofRows g)[i] = g i :=
  Vec.getElem_ofFn g i

@[simp] theorem getElem_ofFn (g : Fin r → Fin c → α) (i : Fin r) (j : Fin c) :
    (ofFn g)[i][j] = g i j := by
  change (Vec.ofFn fun i => Vec.ofFn (g i))[i][j] = _
  rw [Vec.getElem_ofFn, Vec.getElem_ofFn]

@[ext] theorem ext {m k : Mat α r c}
    (h : ∀ (i : Fin r) (j : Fin c), m[i][j] = k[i][j]) : m = k := by
  cases m; cases k
  congr
  exact Vec.ext fun i => Vec.ext fun j => h i j

/-- The matrix with the listed rows, if they have the right shape. -/
def ofLists? (xs : List (List α)) : Option (Mat α r c) := do
  let rows ← xs.mapM Vec.ofList?
  return ⟨← Vec.ofList? rows⟩

/-- Row `i`, if there is one. -/
def row? (m : Mat α r c) (i : Nat) : Option (Vec α c) := m.rows.get? i

/-- Column `j`, if there is one. -/
def column? (m : Mat α r c) (j : Nat) : Option (Vec α r) :=
  if h : j < c then some (Vec.ofFn fun i => m[i][(⟨j, h⟩ : Fin c)]) else none

/-- The entry in row `i` and column `j`, if there is one. -/
def get? (m : Mat α r c) (i j : Nat) : Option α := (m.row? i).bind fun row => row.get? j

/-- The matrix with one entry replaced. -/
def set (m : Mat α r c) (i : Fin r) (j : Fin c) (x : α) : Mat α r c :=
  ofRows fun k => if k = i then m[k].set j x else m[k]

/-- The matrix with one entry replaced, if there is one in row `i` and column `j`. -/
def set? (m : Mat α r c) (i j : Nat) (x : α) : Option (Mat α r c) :=
  if h : i < r ∧ j < c then some (m.set ⟨i, h.1⟩ ⟨j, h.2⟩ x) else none

/-- Entries row by row. -/
def toList (m : Mat α r c) : List (List α) := m.rows.toList.map Vec.toList

/-- One row a line. -/
def toText (text : α → String) (m : Mat α r c) : String :=
  String.intercalate "\n" (m.rows.toList.map (Vec.toText text))

/-! ## Transposition -/

/-- Rows become columns. -/
def transpose (m : Mat α r c) : Mat α c r := ofFn fun i j => m[j][i]

/-- The matrix with the entries at `(i, j)` and `(j, i)` exchanged. -/
def swapEntries (m : Mat α n n) (i j : Fin n) : Mat α n n :=
  let upper := m[i][j]
  (m.set i j m[j][i]).set j i upper

/-- Flips a square matrix by exchanging, row by row, each entry right of the
diagonal with the one across it. -/
def transposeInPlace (m : Mat α n n) : Mat α n n :=
  (List.finRange n).foldl (fun m i =>
    (List.finRange n).foldl (fun m j => if i < j then m.swapEntries i j else m) m) m

/-! ## Arithmetic -/

section Scalar

variable [Scalar α]

def zero : Mat α r c := ofFn fun _ _ => 0

def identity : Mat α n n := ofFn fun i j => if i = j then 1 else 0

instance : Add (Mat α r c) := ⟨fun m k => ofRows fun i => m[i] + k[i]⟩

instance : Sub (Mat α r c) := ⟨fun m k => ofRows fun i => m[i] - k[i]⟩

instance : Neg (Mat α r c) := ⟨fun m => ofRows fun i => -m[i]⟩

/-- Every entry times `k`. -/
def scale (m : Mat α r c) (k : α) : Mat α r c := ofRows fun i => m[i] * k

def mul {k : Nat} (a : Mat α r k) (b : Mat α k c) : Mat α r c :=
  ofFn fun i j => Scalar.sum fun l : Fin k => a[i][l] * b[l][j]

instance {k : Nat} : HMul (Mat α r k) (Mat α k c) (Mat α r c) := ⟨mul⟩

def mulVec (m : Mat α r c) (v : Vec α c) : Vec α r := Vec.ofFn fun i => m[i].dot v

instance : HMul (Mat α r c) (Vec α c) (Vec α r) := ⟨mulVec⟩

/-- The sum of the diagonal. -/
def trace (m : Mat α n n) : α := Scalar.sum fun i : Fin n => m[i][i]

end Scalar

/-! ## Comparison -/

section Measured

variable {ω : Type} [Scalar α] [Scalar ω] [Widening α ω]

/-- Whether all entries are alike. -/
def approxEq (t : Tolerance ω) (m k : Mat α r c) : Bool :=
  (List.finRange r).all fun i => m[i].approxEq t k[i]

/-- Whether two matrices are alike within the tolerance of their scalar. -/
def alike (m k : Mat α r c) : Bool := m.approxEq (Widening.tolerance α) k

end Measured

end Mat

end SceneEngine
