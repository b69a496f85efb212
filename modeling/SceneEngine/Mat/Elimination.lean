/-
Rank, determinant and inverse from one pass of Gauss–Jordan elimination.

Column after column the largest remaining entry is brought to the diagonal, its
row divided by it, and the column cleared in all other rows, above and below. The
same row operations turn the identity into the inverse. A column whose largest
remaining entry is negligible next to the column's largest entry in the input is
passed over and counts against the rank: a matrix is judged by its shape and not
by its magnitude.
-/
import SceneEngine.Mat

namespace SceneEngine

/-- What one elimination yields. -/
structure Reduction (α : Type) (n : Nat) where
  /-- Pivots found. -/
  rank : Nat
  /-- The signed product of the pivots, zero when there are fewer than `n`. -/
  determinant : α
  /-- Present when there are `n` pivots. -/
  inverse : Option (Mat α n n)
deriving DecidableEq

namespace Elimination

variable {α : Type} {n : Nat}

/-- The matrix with rows `p` and `q` exchanged. -/
def swapRows (m : Mat α n n) (p q : Fin n) : Mat α n n :=
  .ofRows fun i => if i = p then m[q] else if i = q then m[p] else m[i]

variable [Scalar α]

/-- An elimination under way: `work` is the reduced input, `inverse` the identity
after the same row operations. -/
structure Progress (α : Type) (n : Nat) where
  work : Mat α n n
  inverse : Mat α n n
  determinant : α
  rank : Nat

/-- The largest size of an entry of column `j`. -/
def columnScale (m : Mat α n n) (j : Fin n) : α :=
  (List.finRange n).foldl (fun scale i =>
    let size := Scalar.abs m[i][j]
    if scale < size then size else scale) 0

/-- The row at or below `first` with the largest entry in column `j`, the upper one
of equals. -/
def pivotRow (m : Mat α n n) (j first : Fin n) : Fin n :=
  (List.finRange n).foldl (fun best i =>
    if first < i ∧ Scalar.abs m[best][j] < Scalar.abs m[i][j] then i else best) first

/-- Row `p` divided by `pivot`. -/
def divideRow (m : Mat α n n) (p : Fin n) (pivot : α) : Mat α n n :=
  .ofRows fun i => if i = p then m[i] / pivot else m[i]

/-- Every row but `p` less `factor i` times row `p`; a row with a zero factor is kept. -/
def clearRows (m : Mat α n n) (p : Fin n) (factor : Fin n → α) : Mat α n n :=
  .ofRows fun i =>
    if i = p then m[i]
    else if Scalar.same (factor i) 0 then m[i]
    else Vec.ofFn fun j => m[i][j] - factor i * m[p][j]

/-- Makes column `j` a unit column, given its pivot in row `best`. -/
def reduceColumn (s : Progress α n) (j p best : Fin n) : Progress α n :=
  let pivot := s.work[best][j]
  let work := divideRow (swapRows s.work best p) p pivot
  let inverse := divideRow (swapRows s.inverse best p) p pivot
  let factor : Fin n → α := fun i => work[i][j]
  { work := clearRows work p factor
    inverse := clearRows inverse p factor
    determinant := (if best = p then s.determinant else -s.determinant) * pivot
    rank := s.rank + 1 }

variable {ω : Type} [Scalar ω] [Widening α ω]

/-- Treats column `j` of the input `m`: reduces it, or passes it over. -/
def step (t : Tolerance ω) (m : Mat α n n) (j : Fin n) (s : Progress α n) : Progress α n :=
  if h : s.rank < n then
    let best := pivotRow s.work j ⟨s.rank, h⟩
    if t.isNegligible s.work[best][j] (columnScale m j) then s
    else reduceColumn s j ⟨s.rank, h⟩ best
  else s

/-- All columns, from the first to the last. -/
def run (t : Tolerance ω) (m : Mat α n n) : Progress α n :=
  (List.finRange n).foldl (fun s j => step t m j s)
    { work := m, inverse := .identity, determinant := 1, rank := 0 }

end Elimination

namespace Mat

variable {α ω : Type} {n : Nat} [Scalar α] [Scalar ω] [Widening α ω]

/-- Rank, determinant and inverse of `m`. -/
def eliminate (t : Tolerance ω) (m : Mat α n n) : Reduction α n :=
  let s := Elimination.run t m
  if s.rank < n then { rank := s.rank, determinant := 0, inverse := none }
  else { rank := s.rank, determinant := s.determinant, inverse := some s.inverse }

def determinant (t : Tolerance ω) (m : Mat α n n) : α := (m.eliminate t).determinant

def rank (t : Tolerance ω) (m : Mat α n n) : Nat := (m.eliminate t).rank

/-- The inverse of `m`, an error when it lacks rank. -/
def inverse (t : Tolerance ω) (m : Mat α n n) : Except (NumericError ω) (Mat α n n) :=
  let reduction := m.eliminate t
  match reduction.inverse with
  | some inverse => .ok inverse
  | none => .error (.singularMatrix (widen reduction.determinant))

end Mat

end SceneEngine
