/-
The layer that drives the library from outside, for trying things out. Nothing of the
library imports it.

A `Bench` is a world without an engine: the built-in systems are put in one at a time and
stepped by hand, in any order. The sample behaviors run on a bench and in an engine alike,
and the parts of a world can be changed by themselves.
-/
import SceneEngine.Contact.Step
import SceneEngine.Schedule
import SceneEngine.World.Motion
import SceneEngine.World.Rendering
import SceneEngine.World.Upkeep

namespace SceneEngine

/-! ## Sample behaviors -/

namespace Behavior

/-- Turns transforms by a fixed angle a step. -/
def spin (name : String) (degrees : Vec F32 3) : Behavior :=
  perMember name [.transform] fun e => do
    let t ← World.read .transform e
    World.write .transform e (t.rotate degrees)

/-- Fails on a transform without a normal matrix. -/
def strict (name : String) : Behavior :=
  perMember name [.transform] fun e => do
    let t ← World.read .transform e
    match t.normalMatrix (← get).tolerance with
    | .ok _ => return
    | .error error => throw (.numeric error)

/-- Adds the first custom component to the second, and fails where it is missing. -/
def need (name : String) : Behavior :=
  perMember name [.custom 0] fun e => do
    let x ← World.read (.custom 0) e
    let y ← World.read (.custom 1) e
    World.write (.custom 1) e (y + x : Int64)

/-- Counts the third custom component down and destroys its entity at zero. -/
def reap (name : String) : Behavior :=
  perMember name [.custom 2] fun e => do
    let x ← World.read (.custom 2) e
    let x : Int64 := x - 1
    World.write (.custom 2) e x
    if x ≤ 0 then World.destroyEntity e

end Behavior

/-! ## Parts by themselves -/

namespace Storage

/-- What a registration answers, with the storage it leaves, or how it fails. -/
def register (s : Storage) (k : Kind) : Except SceneError (Nat × Storage) :=
  (registerComponent k).outcome s

/-- The storage an addition leaves, or how it fails. -/
def add (s : Storage) (k : Kind) (e : EntityId) (value : k.Value) : Except SceneError Storage :=
  ((addComponent k e value).outcome s).map Prod.snd

/-- What a removal answers, with the storage it leaves, or how it fails. -/
def remove (s : Storage) (k : Kind) (e : EntityId) : Except SceneError (k.Value × Storage) :=
  (removeComponent k e).outcome s

end Storage

namespace Roster

/-- What a registration answers, with the roster it leaves, or how it fails. -/
def register (r : Roster) (name : String) (required : Signature) :
    Except SceneError (SystemId × Roster) :=
  (registerSystem name required).outcome r

end Roster

/-! ## The bench -/

/-- The systems an engine comes with. -/
inductive BuiltIn where
  | motion
  | contact
  | upkeep
  | rendering
deriving DecidableEq, Repr

namespace BuiltIn

/-- The name a system is registered under. -/
def systemName : BuiltIn → String
  | motion => Motion.systemName
  | contact => Contact.systemName
  | upkeep => Upkeep.systemName
  | rendering => Rendering.systemName

/-- What a system asks for. -/
def required : BuiltIn → List Kind
  | motion => Motion.required
  | contact => Contact.required
  | upkeep => Upkeep.required
  | rendering => Rendering.required

end BuiltIn

structure Bench where
  config : PhysicsConfig
  world : World
  motion : Option SystemId
  contact : Option (SystemId × ContactMemory)
  upkeep : Option SystemId
  rendering : Option (SystemId × Rendering)
  schedule : Schedule

/-- A change of a bench that may fail on the way. -/
abbrev BenchAction := Change Bench

namespace Bench

/-- A bench without systems. -/
def new (config : PhysicsConfig) (world : World) : Bench :=
  ⟨config, world, none, none, none, none, []⟩

/-- Changes the world on a bench. -/
def onWorld {β : Type} (action : Action β) : BenchAction β := fun b =>
  match action b.world with
  | .ok x world => .ok x { b with world }
  | .error error world => .error error { b with world }

/-- Keeps what a system remembers. A renderer has room for `capacity` frames. -/
def keep (b : Bench) (capacity : Nat) (id : SystemId) : BuiltIn → Bench
  | .motion => { b with motion := some id }
  | .contact => { b with contact := some (id, .new b.config) }
  | .upkeep => { b with upkeep := some id }
  | .rendering => { b with rendering := some (id, .new capacity) }

/-- Registers a system. One that is there already stays as it is. -/
def install (system : BuiltIn) (capacity : Nat) : BenchAction SystemId := do
  let id ← onWorld (World.registerSystemFor system.systemName system.required)
  modify fun b => b.keep capacity id system
  return id

/-- The contact step on the bench's own memory. -/
def stepContact (id : SystemId) (m : ContactMemory) : BenchAction Unit := fun b =>
  match Contact.step m id b.world with
  | (m, .ok () world) => .ok () { b with world, contact := some (id, m) }
  | (m, .error error world) => .error error { b with world, contact := some (id, m) }

/-- Sends a frame to the bench's own renderer. -/
def present (id : SystemId) (r : Rendering) : BenchAction Unit := do
  let r ← ofExcept (r.step id (← get).world)
  modify fun b => { b with rendering := some (id, r) }

/-- One step of a system. One that is not installed does nothing. -/
def update (system : BuiltIn) (dt : F32) : BenchAction Unit := do
  let b ← get
  match system with
  | .motion => b.motion.forM fun id => onWorld (Motion.step b.config id dt)
  | .contact => b.contact.forM fun (id, m) => stepContact id m
  | .upkeep => b.upkeep.forM fun id => onWorld (Upkeep.step id)
  | .rendering => b.rendering.forM fun (id, r) => present id r

/-- Adds a behavior to the schedule. -/
def addBehavior (behavior : Behavior) : BenchAction SystemId :=
  (Schedule.addBehavior behavior).within (fun b => (b.world, b.schedule))
    fun b (world, schedule) => { b with world, schedule }

/-- One step of the schedule. -/
def runSchedule (dt : F32) : BenchAction Unit := do onWorld ((← get).schedule.run dt)

end Bench

end SceneEngine
