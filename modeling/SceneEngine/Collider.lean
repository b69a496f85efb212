/-
A collider: the box of space an entity claims, and what became of the claim.

Only the position of its transform moves the box; rotation and scale do not.
-/
import SceneEngine.Box
import SceneEngine.SceneError

namespace SceneEngine

/-- What the last contact step found about a collider. Ids are in ascending order. -/
structure ContactReport where
  /-- Blocked by another solid collider or overlapping one. -/
  colliding : Bool
  /-- The axes on which movement was undone. -/
  blockedAxes : Vec Bool 3
  /-- Resting on something below. -/
  onGround : Bool
  /-- `onGround` as of the step before. -/
  wasOnGround : Bool
  /-- Colliders still overlapping this one afterward. -/
  collidingWith : List EntityId
  /-- Colliders that blocked this one. -/
  blockedBy : List EntityId
deriving DecidableEq

namespace ContactReport

/-- Nothing found. -/
def clear : ContactReport := ⟨false, .splat false, false, false, [], []⟩

/-- Whether movement was undone on any axis. -/
def isBlocked (r : ContactReport) : Bool := r.blockedAxes.toList.any id

end ContactReport

structure Collider where
  /-- The box around the entity's position. -/
  bounds : Box F32
  /-- A collider that is not solid meets nothing. -/
  solid : Bool
  report : ContactReport
deriving DecidableEq

namespace Collider

/-- A solid collider. -/
def new (bounds : Box F32) : Collider := ⟨bounds, true, .clear⟩

/-- The box of an entity at `position`. -/
def worldBounds (c : Collider) (position : Vec F32 3) : Box F32 := c.bounds.translate position

end Collider

/-- Two solid colliders, the lower id first, began to overlap. -/
structure ContactEvent where
  entity : EntityId
  other : EntityId
  /-- The volume shared when contact began. -/
  overlap : F32
deriving DecidableEq

end SceneEngine
