/-
The shortest decimal that reads back.

A finite number stands for the reals nearer to it than to its neighbours; the
ends of that interval belong to it when its magnitude is even. Everything is
measured in `10 ^ -(unitBits + 1)`, in which half a unit is the whole number
`5 ^ (unitBits + 1)`, so the search is exact. The coarsest power of ten that has
a multiple in the interval gives the fewest digits; of two multiples the nearer
wins, and the upper one when both are as near.
-/
import SceneEngine.Binary.Basic

namespace SceneEngine

/-- A decimal `digits · 10 ^ exponent`. -/
structure Decimal where
  digits : Nat
  exponent : Int
deriving DecidableEq, Repr

namespace Decimal

/-- Written with no exponent: as many zeros as it takes on either side, and a
point only before a fraction. -/
def positional (d : Decimal) : String :=
  let text := (toString d.digits).toList
  match d.exponent with
  | .ofNat zeros => String.ofList (text ++ List.replicate zeros '0')
  | .negSucc k =>
    let places := k + 1
    let padded := List.replicate (places + 1 - text.length) '0' ++ text
    String.ofList (padded.take (padded.length - places) ++ '.' :: padded.drop (padded.length - places))

end Decimal

/-- The interval of reals that round to one number, around the number itself. -/
structure RoundingInterval where
  lower : Nat
  value : Nat
  upper : Nat
  closed : Bool

namespace RoundingInterval

def contains (i : RoundingInterval) (x : Nat) : Bool :=
  if i.closed then decide (i.lower ≤ x ∧ x ≤ i.upper) else decide (i.lower < x ∧ x < i.upper)

/-- The multiple of `grid` in the interval next to its value, if there is one. -/
def onGrid? (i : RoundingInterval) (grid : Nat) : Option Nat :=
  let below := i.value / grid
  let above := below + 1
  match i.contains (below * grid), i.contains (above * grid) with
  | true, true =>
    some (if i.value - below * grid < above * grid - i.value then below else above)
  | true, false => some below
  | false, true => some above
  | false, false => none

/-- The multiple of the coarsest grid `10 ^ j`, `j` at most the given one, that lies
in the interval. The finest grid holds the value itself. -/
def shortest (i : RoundingInterval) : Nat → Nat × Nat
  | 0 => (i.value, 0)
  | j + 1 =>
    match i.onGrid? (Nat.pow 10 (j + 1)) with
    | some d => (d, j + 1)
    | none => i.shortest j

end RoundingInterval

namespace Binary

variable {f : Format}

/-- The reals that round to the size of a finite number, in `10 ^ -(unitBits + 1)`. -/
def interval (x : Binary f) : RoundingInterval :=
  let halfUnit := Nat.pow 5 (f.unitBits + 1)
  let value := x.unitCount
  { lower := (f.unitsAt (x.magnitude - 1) + value) * halfUnit
    value := 2 * value * halfUnit
    upper := (value + f.unitsAt (x.magnitude + 1)) * halfUnit
    closed := x.magnitude % 2 == 0 }

/-- The shortest decimal that reads back as the size of a finite number. The search
starts at a power of ten above the interval: `1233 / 4096` is just below the
decimal logarithm of two. -/
def toDecimal (x : Binary f) : Decimal :=
  if x.isZero then ⟨0, 0⟩
  else
    let i := x.interval
    let (digits, j) := i.shortest (i.upper.log2 * 1233 / 4096 + 2)
    ⟨digits, (j : Int) - (f.unitBits + 1)⟩

/-- The text of a number: shortest digits, no exponent, no point for a whole number. -/
def toText (x : Binary f) : String :=
  if x.isNaN then "NaN"
  else
    let size := if x.isInfinite then "inf" else x.toDecimal.positional
    if x.negative then "-" ++ size else size

end Binary

end SceneEngine
