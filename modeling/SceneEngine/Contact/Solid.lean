/-
Contact begins with a snapshot: every solid collider as it stands when the step
begins. All that follows is computed from it.
-/
import SceneEngine.World

namespace SceneEngine.Contact

/-- One solid collider at the start of a step. -/
structure Solid where
  entity : EntityId
  bounds : Box F32
  position : Vec F32 3
  /-- Where it was before it moved; its position when it does not move. -/
  previous : Vec F32 3
  /-- The box at `position`. -/
  current : Box F32
  /-- The box around the movement from `previous` to `position`. -/
  swept : Box F32
  /-- Whether it has a body that is not fixed. -/
  dynamic : Bool
  friction : F32
deriving DecidableEq

namespace Solid

def ofComponents (e : EntityId) (c : Collider) (t : Transform F32) (b : Option Body) : Solid :=
  let dynamic := b.any fun b => !b.fixed
  let previous := match b with
    | some b => if b.fixed then t.position else b.previousPosition
    | none => t.position
  let current := c.bounds.translate t.position
  { entity := e
    bounds := c.bounds
    position := t.position
    previous
    current
    swept := (c.bounds.translate previous).union current
    dynamic
    friction := b.elim 0 Body.friction }

end Solid

/-- The snapshot of one entity; none when its collider is not solid. -/
def snapshot (w : World) (e : EntityId) : Except SceneError (Option Solid) := do
  let c ← w.component .collider e
  if !c.solid then return none
  let t ← w.component .transform e
  return some (.ofComponents e c t (w.get? .body e))

/-- The solid members of a system, in ascending order of entities. -/
def gather (w : World) (id : SystemId) : Except SceneError (Array Solid) := do
  let found ← (← w.members id).mapM (snapshot w)
  return (found.filterMap fun s => s).toArray

end SceneEngine.Contact
