/-
What the geometry of the library asks of a number.

Vectors, matrices, boxes, cameras and clocks are written once over any `Scalar`.
The simulation runs them in single precision; an exact ordered field can stand in
to reason about them without rounding. No law is part of the class: the two
binary formats keep few of those a field has.

`Widening` ties a scalar to the type in which its tolerances are measured.
-/
import SceneEngine.Binary.Circular

namespace SceneEngine

/-- The operations on a coordinate, a length or an angle. -/
class Scalar (α : Type) extends Zero α, One α, NatCast α, Add α, Sub α, Mul α, Div α, Neg α,
    Min α, Max α, LT α, LE α where
  decidableLT : DecidableLT α
  decidableLE : DecidableLE α
  /-- Whether two values are equal as numbers. -/
  same : α → α → Bool
  /-- The remainder of the division that rounds toward zero. -/
  rem : α → α → α
  abs : α → α
  sqrt : α → α
  /-- Sine of an angle in radians. -/
  sin : α → α
  /-- Cosine of an angle in radians. -/
  cos : α → α
  /-- Tangent of an angle in radians. -/
  tan : α → α
  /-- Whether this is a number, and not an infinity or a NaN. -/
  isFinite : α → Bool
  /-- Half a turn. -/
  pi : α
  /-- One degree, in radians. -/
  degree : α
  /-- One radian, in degrees. -/
  radian : α

attribute [reducible, instance] Scalar.decidableLT Scalar.decidableLE

namespace Scalar

variable {α : Type} [Scalar α]

/-- The greater of two values, the second when they do not compare. -/
def maxOf (x y : α) : α := if y ≤ x then x else y

/-- The lesser of two values, the second when they do not compare. -/
def minOf (x y : α) : α := if x ≤ y then x else y

/-- The value brought into `lo … hi`. A value that compares with neither end stays. -/
def clamp (x lo hi : α) : α := if x < lo then lo else if hi < x then hi else x

/-- The terms added from the first to the last, starting at zero. -/
def sum {n : Nat} (term : Fin n → α) : α := (List.finRange n).foldl (fun s i => s + term i) 0

/-- One plus one. -/
def two : α := 1 + 1

/-- One half. -/
def half : α := 1 / two

end Scalar

namespace Binary

variable {f : Format}

/-- The scalar operations of a binary format, given its constants. -/
@[reducible] def scalar (pi degree radian : Binary f) : Scalar (Binary f) where
  zero := signedZero false
  one := ofNat 1
  natCast := ofNat
  add := add
  sub := sub
  mul := mul
  div := div
  neg := neg
  min := least
  max := greatest
  same := eq
  lt x y := x.lt y = true
  le x y := x.le y = true
  decidableLT x y := inferInstanceAs (Decidable (x.lt y = true))
  decidableLE x y := inferInstanceAs (Decidable (x.le y = true))
  rem := rem
  abs := abs
  sqrt := sqrt
  sin := sin
  cos := cos
  tan := tan
  isFinite := isFinite
  pi := pi
  degree := degree
  radian := radian

end Binary

instance : Scalar F32 :=
  Binary.scalar (.ofWord 0x40490fdb) (.ofWord 0x3c8efa35) (.ofWord 0x42652ee1)

instance : Scalar F64 :=
  Binary.scalar (.ofWord 0x400921fb54442d18) (.ofWord 0x3f91df46a2529d39)
    (.ofWord 0x404ca5dc1a63c1f8)

end SceneEngine
