/-
What can go wrong in a scene, one constructor per cause, and the text of each.

Expected absence, such as a name nobody has, is an `Option` and no error.
-/
import SceneEngine.NumericError

namespace SceneEngine

/-- An entity. Ids are handed out from zero and used again after destruction. -/
abbrev EntityId := Nat

/-- A system, by its place in the order of registration. -/
abbrev SystemId := Nat

/-- A kind of component. Beside those the built-in systems know there are custom
kinds, told apart by a tag, that hold an integer each. -/
inductive Kind where
  | transform
  | body
  | collider
  | camera
  | drawable
  | custom (tag : Nat)
deriving DecidableEq, Repr

/-- Why a configuration is refused. -/
inductive ConfigFault where
  /-- An entity table of a size no id can count. -/
  | entityLimit
  | maxEntities
  | maxComponents
  | epsilons
  | gravity
  | airFriction
  | bounciness
  | eventCapacity
  | fixedTimestep
  | unreadable (path reason : String)
  /-- The text is no document, or a value in it has the wrong type. -/
  | malformed
  /-- An integer is too large for a document. -/
  | unrepresentable
deriving DecidableEq, Repr

namespace ConfigFault

def message : ConfigFault → String
  | entityLimit => "max_entities must be in 1..=4294967295"
  | maxEntities => "ecs.max_entities must be in 1..=u32::MAX"
  | maxComponents => "ecs.max_components must be in 1..=64"
  | epsilons => "math epsilons must be positive (relative may be zero)"
  | gravity => "physics.gravity must be finite"
  | airFriction => "physics.air_friction must be in [0, 1]"
  | bounciness => "physics bounciness values must be non-negative"
  | eventCapacity => "physics.event_capacity must be positive"
  | fixedTimestep => "physics.fixed_timestep must be positive"
  | unreadable path reason => "cannot read " ++ path ++ ": " ++ reason
  | malformed => "malformed document"
  | unrepresentable => "integer out of range"

end ConfigFault

inductive SceneError where
  /-- All ids are live. -/
  | entityCapacityExceeded (max : Nat)
  | entityNotAlive (entity : EntityId)
  | duplicateEntityName (name : String)
  /-- All bits of a signature are taken. -/
  | componentCapacityExceeded (max : Nat)
  | componentNotRegistered (kind : Kind)
  | componentAlreadyPresent (entity : EntityId) (kind : Kind)
  | componentMissing (entity : EntityId) (kind : Kind)
  /-- Both halves of a pair are of one kind. -/
  | aliasedComponents (kind : Kind)
  /-- A body whose mass is not positive and finite. -/
  | invalidMass
  | systemAlreadyRegistered (name : String)
  | systemNotRegistered (system : SystemId)
  | numeric (error : NumericError F64)
  | config (fault : ConfigFault)
deriving DecidableEq

namespace SceneError

/-- The text of an error. Kinds of components are named by `label`. -/
def message (label : Kind → String) : SceneError → String
  | entityCapacityExceeded max =>
    "entity capacity exceeded: at most " ++ toString max ++ " live entities"
  | entityNotAlive entity => "entity #" ++ toString entity ++ " is not alive"
  | duplicateEntityName name => "an entity named '" ++ name ++ "' already exists"
  | componentCapacityExceeded max =>
    "component type capacity exceeded: at most " ++ toString max ++ " component types"
  | componentNotRegistered kind => "component " ++ label kind ++ " is not registered"
  | componentAlreadyPresent entity kind =>
    "entity #" ++ toString entity ++ " already has component " ++ label kind
  | componentMissing entity kind =>
    "entity #" ++ toString entity ++ " has no component " ++ label kind
  | aliasedComponents kind => "component " ++ label kind ++ " borrowed mutably twice"
  | invalidMass => "invalid Physics: mass must be positive and finite"
  | systemAlreadyRegistered name => "system '" ++ name ++ "' is already registered"
  | systemNotRegistered system => "system system:" ++ toString system ++ " is not registered"
  | numeric error => error.message
  | config fault => "invalid configuration: " ++ fault.message

end SceneError

end SceneEngine
