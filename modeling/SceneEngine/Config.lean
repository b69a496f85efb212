/-
The settings of an engine, and which of them it accepts.

`EngineConfig.validate` names the first setting out of range. Some checks ask
whether a value is in range and some whether it is out of range; the two differ on
a NaN, which is in no range and out of none.
-/
import SceneEngine.SceneError
import SceneEngine.Vec

namespace SceneEngine

/-- How many entities and kinds of components a world can hold. -/
structure CapacityConfig where
  maxEntities : Nat
  maxComponents : Nat
deriving DecidableEq

/-- The tolerance all systems share. -/
structure ToleranceConfig where
  absoluteEpsilon : F64
  relativeEpsilon : F64
deriving DecidableEq

/-- The constants of motion and contact. -/
structure PhysicsConfig where
  gravity : Vec F32 3
  gravityScale : F32
  /-- Multiplies a force before it is divided by the mass. -/
  forceScale : F32
  /-- The share of velocity lost per step by bodies without a friction of their own. -/
  airFriction : F32
  /-- The share of speed kept after a bounce. -/
  bounciness : F32
  /-- The least speed at which a body bounces. -/
  bouncinessThreshold : F32
  /-- The length of a simulation step; absent, a step is as long as its frame. -/
  fixedTimestep : Option F32
  /-- Contact events kept for the receiver. -/
  eventCapacity : Nat
deriving DecidableEq

structure LoggingConfig where
  level : String
  json : Bool
deriving DecidableEq

structure EngineConfig where
  capacity : CapacityConfig
  tolerance : ToleranceConfig
  physics : PhysicsConfig
  logging : LoggingConfig
deriving DecidableEq

/-- The bits of a signature, and so the most kinds of components. -/
def signatureBits : Nat := 64

/-- The greatest id of an entity. -/
def maxEntityId : Nat := (1 <<< 32) - 1

namespace CapacityConfig

def standard : CapacityConfig := ⟨5000, 32⟩

end CapacityConfig

namespace ToleranceConfig

def standard : ToleranceConfig := ⟨Tolerance.single.absolute, Tolerance.single.relative⟩

def tolerance (c : ToleranceConfig) : Tolerance F64 := ⟨c.absoluteEpsilon, c.relativeEpsilon⟩

end ToleranceConfig

namespace PhysicsConfig

def standard : PhysicsConfig where
  gravity := .of3 0 (.ofDecimal true 891 (-2)) 0
  gravityScale := (3 : Nat)
  forceScale := (35 : Nat)
  airFriction := .ofDecimal false 1 (-2)
  bounciness := .ofDecimal false 5 (-1)
  bouncinessThreshold := 1
  fixedTimestep := none
  eventCapacity := 1024

end PhysicsConfig

namespace LoggingConfig

def standard : LoggingConfig := ⟨"info", false⟩

end LoggingConfig

namespace EngineConfig

def standard : EngineConfig := ⟨.standard, .standard, .standard, .standard⟩

/-- The first setting the engine cannot run with, if there is one. -/
def fault? (c : EngineConfig) : Option ConfigFault :=
  if c.capacity.maxEntities = 0 ∨ maxEntityId < c.capacity.maxEntities then some .maxEntities
  else if c.capacity.maxComponents = 0 ∨ signatureBits < c.capacity.maxComponents then
    some .maxComponents
  else if ¬ 0 < c.tolerance.absoluteEpsilon ∨ ¬ 0 ≤ c.tolerance.relativeEpsilon then
    some .epsilons
  else if c.physics.gravity.toList.any fun g => !g.isFinite then some .gravity
  else if ¬ (0 ≤ c.physics.airFriction ∧ c.physics.airFriction ≤ 1) then some .airFriction
  else if c.physics.bounciness < 0 ∨ c.physics.bouncinessThreshold < 0 then some .bounciness
  else if c.physics.eventCapacity = 0 then some .eventCapacity
  else
    match c.physics.fixedTimestep with
    | none => none
    | some step => if ¬ 0 < step ∨ !step.isFinite then some .fixedTimestep else none

/-- Refuses settings out of range. -/
def validate (c : EngineConfig) : Except SceneError Unit :=
  match c.fault? with
  | none => .ok ()
  | some fault => .error (.config fault)

end EngineConfig

end SceneEngine
