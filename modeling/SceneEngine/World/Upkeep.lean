/-
Upkeep: after each step rotations are wrapped and matrices brought up to date.
-/
import SceneEngine.World

namespace SceneEngine.Upkeep

/-- The name the system is registered under. -/
def systemName : String := "TransformSystem"

/-- What the system asks for. -/
def required : List Kind := [.transform]

/-- Wraps a rotation beyond a full turn and refreshes stale matrices. A model without
a normal matrix is no failure. -/
def tend {α ω : Type} [Scalar α] [Scalar ω] [Widening α ω] (tolerance : Tolerance ω)
    (t : Transform α) : Transform α :=
  let wrapped := Transform.wrapRotation t.rotation
  let t := if wrapped.alike t.rotation then t else t.setRotation wrapped
  (t.refresh tolerance).1

def stepEntity (e : EntityId) : Action Unit := do
  let t ← World.read .transform e
  World.write .transform e (tend (← get).tolerance t)

/-- One step of all members, in ascending order. -/
def step (id : SystemId) : Action Unit := do
  (← World.readMembers id).forM stepEntity

end SceneEngine.Upkeep
