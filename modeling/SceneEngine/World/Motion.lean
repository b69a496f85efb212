/-
Motion: each step turns force into velocity and velocity into movement.
-/
import SceneEngine.World

namespace SceneEngine.Motion

/-- The name the system is registered under. -/
def systemName : String := "PhysicsSystem"

/-- What the system asks for. -/
def required : List Kind := [.transform, .body]

/-- Moves one body. Where it was is kept, so that contact can undo the movement. -/
def moveBody (config : PhysicsConfig) (dt : F32) (t : Transform F32) (b : Body) :
    Transform F32 × Body :=
  let b := { b with previousPosition := t.position }.integrate config dt
  if !b.fixed && decide (0 < b.velocity.lengthSquared) then (t.move (b.velocity * dt), b)
  else (t, b)

def stepEntity (config : PhysicsConfig) (dt : F32) (e : EntityId) : Action Unit := do
  let (t, b) ← World.readPair .transform .body e
  let (t, b) := moveBody config dt t b
  World.writePair .transform .body e t b

/-- One step of all members, in ascending order. -/
def step (config : PhysicsConfig) (id : SystemId) (dt : F32) : Action Unit := do
  (← World.readMembers id).forM (stepEntity config dt)

end SceneEngine.Motion
