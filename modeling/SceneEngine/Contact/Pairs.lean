/-
Which pairs can touch.

Bodies are sorted by where their swept boxes begin on the X axis; each is paired
with those after it until one begins beyond its end. Two bodies that do not move
matter only when they overlap already. `allPairs` is every pair in the same order,
to compare with.
-/
import SceneEngine.Contact.Solid

namespace SceneEngine.Contact

/-! ## Sorting -/

/-- Puts `x` before the first element it may precede. -/
def insertBy {α : Type} (le : α → α → Bool) (x : α) : List α → List α
  | [] => [x]
  | y :: rest => if le x y then x :: y :: rest else y :: insertBy le x rest

/-- Sorts a list; elements that may precede each other keep their order. -/
def sortBy {α : Type} (le : α → α → Bool) : List α → List α
  | [] => []
  | x :: rest => insertBy le x (sortBy le rest)

/-! ## Sweeping -/

/-- A pair of `n` bodies, by index. -/
abbrev Pair (n : Nat) := Fin n × Fin n

variable {n : Nat} (bodies : Vector Solid n)

/-- The lower index first. -/
def Pair.ordered (a b : Fin n) : Pair n :=
  if a ≤ b then (a, b) else (b, a)

/-- Whether a pair has to be looked at: one of the two moves, or they overlap. -/
def matters (a b : Fin n) : Bool :=
  (bodies.get a).dynamic || (bodies.get b).dynamic ||
    (bodies.get a).current.intersects (bodies.get b).current

/-- Pairs of `a` with the bodies after it, up to the first that begins beyond its end. -/
def pairsFrom (a : Fin n) : List (Fin n) → List (Pair n)
  | [] => []
  | b :: rest =>
    if (bodies.get a).swept.upper.x < (bodies.get b).swept.lower.x then []
    else if matters bodies a b then Pair.ordered a b :: pairsFrom a rest
    else pairsFrom a rest

def sweep : List (Fin n) → List (Pair n)
  | [] => []
  | a :: rest => pairsFrom bodies a rest ++ sweep rest

/-- Where body `a` begins on the X axis, as a place in the order of all words. -/
def start (a : Fin n) : Int := (bodies.get a).swept.lower.x.rank

/-- All bodies, those that begin first on the X axis first. -/
def sweepOrder : List (Fin n) :=
  sortBy (fun a b => decide (start bodies a ≤ start bodies b)) (List.finRange n)

/-- Whether a pair comes before another: by its first body, then by its second. -/
def Pair.le (p q : Pair n) : Bool :=
  decide (p.1 < q.1 ∨ (p.1 = q.1 ∧ p.2 ≤ q.2))

/-- The pairs that can touch, in ascending order. -/
def candidatePairs : List (Pair n) := sortBy Pair.le (sweep bodies (sweepOrder bodies))

/-- Every pair, in ascending order. -/
def allPairs (_ : Vector Solid n) : List (Pair n) :=
  (List.finRange n).flatMap fun a =>
    ((List.finRange n).filter fun b => decide (a < b)).map fun b => (a, b)

end SceneEngine.Contact
