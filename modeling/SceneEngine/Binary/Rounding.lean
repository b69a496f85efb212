/-
The one rounding of the library, and the arithmetic that uses it.

The exact result of every operation on finite numbers is a quotient `n / d` of
units; `Binary.nearest` gives the number nearest to it, a tie going to the even
neighbour. A sum has `d = 1`; a product has `n` in units of units and divides by
the units in `1`; a quotient multiplies by them.

Operations on a NaN give that NaN (the first operand's before the second's), and
operations without a result give `Binary.invalid`.
-/
import SceneEngine.Binary.Basic

namespace SceneEngine

/-- The whole number nearest to `n / d`, a tie going to the even one. -/
def roundHalfEven (n d : Nat) : Nat :=
  let q := n / d
  let r := n % d
  if 2 * r < d ∨ (2 * r = d ∧ q % 2 = 0) then q else q + 1

namespace Binary

variable {f : Format}

/-- The number nearest to `n / d` units.

The quotient is scaled down by a power of two until it fits the significand. A
significand `m` scaled by `2 ^ s` has magnitude `s * leadingBit + m`, and a
significand that rounds up to a power of two carries into the exponent by that
same sum. -/
def nearest (negative : Bool) (n d : Nat) : Binary f :=
  let scale := (n / d).log2 + 1 - f.precision
  let magnitude := scale * f.leadingBit + roundHalfEven n (d <<< scale)
  ⟨negative, min magnitude f.infinity,
    Nat.lt_of_le_of_lt (Nat.min_le_right _ _) f.infinity_lt⟩

/-! ## Arithmetic -/

def add (x y : Binary f) : Binary f :=
  if x.isNaN then x
  else if y.isNaN then y
  else if x.isInfinite then
    if y.isInfinite && x.negative != y.negative then invalid else x
  else if y.isInfinite then y
  else
    let sum := x.units + y.units
    if sum = 0 then signedZero (x.negative && y.negative)
    else nearest (decide (sum < 0)) sum.natAbs 1

/-- Subtraction adds the opposite, save that a NaN on the right keeps its sign. -/
def sub (x y : Binary f) : Binary f :=
  if x.isNaN then x else if y.isNaN then y else x.add y.neg

def mul (x y : Binary f) : Binary f :=
  let negative := x.negative != y.negative
  if x.isNaN then x
  else if y.isNaN then y
  else if x.isInfinite || y.isInfinite then
    if x.isZero || y.isZero then invalid else signedInfinity negative
  else nearest negative (x.unitCount * y.unitCount) (1 <<< f.unitBits)

def div (x y : Binary f) : Binary f :=
  let negative := x.negative != y.negative
  if x.isNaN then x
  else if y.isNaN then y
  else if x.isInfinite then
    if y.isInfinite then invalid else signedInfinity negative
  else if y.isInfinite then signedZero negative
  else if y.isZero then
    if x.isZero then invalid else signedInfinity negative
  else nearest negative (x.unitCount <<< f.unitBits) y.unitCount

/-- The remainder of the division that rounds toward zero. It is exact and has
the sign of `x`. -/
def rem (x y : Binary f) : Binary f :=
  if x.isNaN then x
  else if y.isNaN then y
  else if x.isInfinite || y.isZero then invalid
  else if y.isInfinite then x
  else nearest x.negative (x.unitCount % y.unitCount) 1

/-- The square root. The root of the units in `x · 2 ^ unitBits` lies strictly
between two whole numbers when it is not one itself, and then rounds as the
middle between them does: the significand ends above that place. -/
def sqrt (x : Binary f) : Binary f :=
  if x.isNaN || x.isZero then x
  else if x.negative then invalid
  else if x.isInfinite then x
  else
    let square := x.unitCount <<< f.unitBits
    let root := square.sqrt
    if root * root = square then nearest false root 1 else nearest false (2 * root + 1) 2

/-! ## Conversions -/

/-- The number of another format nearest to `x`. -/
def convert {g : Format} (x : Binary f) : Binary g :=
  if x.isNaN then signedNaN x.negative
  else if x.isInfinite then signedInfinity x.negative
  else nearest x.negative (x.unitCount <<< (g.unitBits - f.unitBits))
    (1 <<< (f.unitBits - g.unitBits))

/-- The number nearest to a natural number. -/
def ofNat (n : Nat) : Binary f := nearest false (n <<< f.unitBits) 1

/-- The number nearest to `m · 10 ^ e`. A power of ten beyond every finite
number, or below half a unit, is settled without computing it. -/
def ofDecimal (negative : Bool) (m : Nat) (e : Int) : Binary f :=
  let bound : Nat := 1 <<< f.exponentBits
  if m = 0 then signedZero negative
  else if (bound : Int) < e then signedInfinity negative
  else if e < -((m.log2 + bound : Nat) : Int) then signedZero negative
  else nearest negative ((m * Nat.pow 10 e.toNat) <<< f.unitBits) (Nat.pow 10 (-e).toNat)

end Binary

end SceneEngine
