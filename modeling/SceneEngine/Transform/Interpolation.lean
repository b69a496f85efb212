/-
Smooth motion between simulation steps: a blend of the last two transforms.
-/
import SceneEngine.Transform

namespace SceneEngine

/-- The transforms after the last two steps. -/
structure Interpolator (α : Type) where
  previous : Transform α
  current : Transform α
deriving DecidableEq

namespace Interpolator

variable {α : Type} [Scalar α]

/-- A change of distance from the origin beyond this one is a jump. -/
def jumpDistance : α := (100 : Nat)

/-- A turn about one axis beyond this one, in degrees, is not blended. -/
def maxTurn : α := (180 : Nat)

def new (initial : Transform α) : Interpolator α := ⟨initial, initial⟩

/-- Records the transform after a step. After a jump nothing of the old place is kept. -/
def push (i : Interpolator α) (t : Transform α) : Interpolator α :=
  let jump := Scalar.abs (t.position.length - i.current.position.length)
  ⟨if jumpDistance < jump then t else i.current, t⟩

/-- The blend at `alpha`, brought into `0 … 1`, or the current transform when some
axis turned too far. -/
def interpolate (i : Interpolator α) (alpha : α) : Transform α :=
  let turn := i.current.rotation - i.previous.rotation
  if turn.toList.any fun d => decide (maxTurn < Scalar.abs d) then i.current
  else
    let alpha := Scalar.clamp alpha 0 1
    .new (i.previous.position.lerp i.current.position alpha)
      (i.previous.rotation.lerp i.current.rotation alpha)
      (i.previous.scale.lerp i.current.scale alpha)

end Interpolator

end SceneEngine
