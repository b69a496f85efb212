/-
When two measured values count as the same.

A tolerance is an absolute and a relative bound, held in a wider type `ω` than
the values it judges. `Widening` gives the way there and back.
-/
import SceneEngine.Scalar

namespace SceneEngine

/-- Values `a` and `b` are alike when `|a - b| ≤ absolute` or
`|a - b| ≤ relative · max |a| |b|`. -/
structure Tolerance (ω : Type) where
  absolute : ω
  relative : ω
deriving DecidableEq

/-- Values of `α` are measured in `ω`. -/
class Widening (α : Type) (ω : outParam Type) where
  widen : α → ω
  narrow : ω → α
  /-- The tolerance of comparisons that name none. -/
  tolerance : Tolerance ω

export Widening (widen narrow)

namespace Tolerance

variable {α ω : Type} [Scalar ω] [Widening α ω]

/-- Whether two values are alike. Values whose distance is no number never are,
save when they are equal. -/
def approxEq (t : Tolerance ω) (x y : α) : Bool :=
  let a : ω := widen x
  let b : ω := widen y
  if Scalar.same a b then true
  else
    let distance := Scalar.abs (a - b)
    Scalar.isFinite distance &&
      (decide (distance ≤ t.absolute) ||
        decide (distance ≤ t.relative * max (Scalar.abs a) (Scalar.abs b)))

/-- Whether a value is indistinguishable from zero. -/
def isZero (t : Tolerance ω) (x : α) : Bool :=
  decide (Scalar.abs (widen x : ω) ≤ t.absolute)

/-- Whether a value is zero next to `scale`, the largest size it was derived from.
A zero scale leaves the absolute bound. -/
def isNegligible (t : Tolerance ω) (x scale : α) : Bool :=
  let value : ω := Scalar.abs (widen x)
  let size : ω := Scalar.abs (widen scale)
  if Scalar.same size 0 then decide (value ≤ t.absolute) else decide (value ≤ t.relative * size)

/-- Bounds of `1e-5`, for values in single precision. -/
def single : Tolerance F64 := ⟨.ofDecimal false 1 (-5), .ofDecimal false 1 (-5)⟩

/-- Bounds of `1e-10`, for values in double precision. -/
def double : Tolerance F64 := ⟨.ofDecimal false 1 (-10), .ofDecimal false 1 (-10)⟩

end Tolerance

instance : Widening F32 F64 := ⟨Binary.convert, Binary.convert, .single⟩

instance : Widening F64 F64 := ⟨id, id, .double⟩

namespace Scalar

variable {α ω : Type} [Scalar ω] [Widening α ω]

/-- Degrees to radians, computed in the wider type. -/
def toRadians (x : α) : α := narrow (widen x * (degree : ω))

/-- Radians to degrees, computed in the wider type. -/
def toDegrees (x : α) : α := narrow (widen x * (radian : ω))

end Scalar

end SceneEngine
