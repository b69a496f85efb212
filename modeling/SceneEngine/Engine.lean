/-
The engine: a world and everything that happens to it in a tick.

A tick first simulates, then shows. One simulation step moves bodies, undoes what is
blocked, tends transforms, and runs the behaviors a user has added. With a fixed
timestep a tick runs as many whole steps as are due and carries the rest over;
without one it runs a single step as long as the tick. A renderer, once attached,
is then sent one frame.
-/
import SceneEngine.Clock
import SceneEngine.Contact.Step
import SceneEngine.Schedule
import SceneEngine.World.Motion
import SceneEngine.World.Rendering
import SceneEngine.World.Upkeep

namespace SceneEngine

structure Engine where
  config : EngineConfig
  world : World
  motionId : SystemId
  contactId : SystemId
  contact : ContactMemory
  upkeepId : SystemId
  behaviors : Schedule
  renderer : Option (SystemId × Rendering)
  /-- Time not yet simulated. -/
  leftover : F32
  /-- Ticks run so far. -/
  frame : Nat

/-- A change of an engine that may fail on the way. -/
abbrev EngineAction := Change Engine

/-- What one tick did. -/
structure TickStats where
  /-- The number of the tick, from zero. -/
  frame : Nat
  /-- Simulation steps run. -/
  steps : Nat
  /-- The share of a step left over; zero without a fixed timestep. -/
  alpha : F32
deriving DecidableEq

namespace Engine

/-- Registers the built-in systems. -/
def install : Action (SystemId × SystemId × SystemId) := do
  let motion ← World.registerSystemFor Motion.systemName Motion.required
  let contact ← World.registerSystemFor Contact.systemName Contact.required
  let upkeep ← World.registerSystemFor Upkeep.systemName Upkeep.required
  return (motion, contact, upkeep)

/-- An engine with an empty world. -/
def new (config : EngineConfig) : Except SceneError Engine := do
  config.validate
  let world ← World.new config.capacity config.tolerance.tolerance
  match install world with
  | .error e _ => throw e
  | .ok (motionId, contactId, upkeepId) world =>
    return {
      config, world, motionId, contactId, upkeepId
      contact := .new config.physics
      behaviors := []
      renderer := none
      leftover := 0
      frame := 0 }

/-- Changes the world of an engine. -/
def onWorld {β : Type} (action : Action β) : EngineAction β := fun e =>
  match action e.world with
  | .ok x world => .ok x { e with world }
  | .error error world => .error error { e with world }

/-- Sends a renderer the frame of every tick from now on. -/
def attachRenderer (capacity : Nat) : EngineAction SystemId := do
  let id ← onWorld (World.registerSystemFor Rendering.systemName Rendering.required)
  modify fun e => { e with renderer := some (id, .new capacity) }
  return id

/-- Adds a behavior after the built-in systems. -/
def addBehavior (b : Behavior) : EngineAction SystemId :=
  (Schedule.addBehavior b).within (fun e => (e.world, e.behaviors)) fun e (world, behaviors) =>
    { e with world, behaviors }

/-! ## Ticks -/

/-- The contact step on the engine's own memory. -/
def stepContact : EngineAction Unit := fun e =>
  match Contact.step e.contact e.contactId e.world with
  | (contact, .ok () world) => .ok () { e with contact, world }
  | (contact, .error error world) => .error error { e with contact, world }

/-- One simulation step. -/
def simulate (dt : F32) : EngineAction Unit := do
  let e ← get
  onWorld (Motion.step e.config.physics e.motionId dt)
  stepContact
  onWorld (Upkeep.step e.upkeepId)
  onWorld (e.behaviors.run dt)

/-- `n` simulation steps of length `step`, each taken from the time left over once it
is done. -/
def simulateSteps (step : F32) : Nat → EngineAction Unit
  | 0 => return
  | n + 1 => do
    simulate step
    modify fun e => { e with leftover := e.leftover - step }
    simulateSteps step n

/-- The simulation of a tick with a fixed timestep: how many steps were run and what
share of one is left over. -/
def simulateFixed (step dt : F32) : EngineAction (Nat × F32) := do
  modify fun e => { e with leftover := e.leftover + dt }
  let n := Clock.dueSteps step Clock.maxSteps (← get).leftover
  simulateSteps step n
  modify fun e => { e with leftover := Clock.trim step e.leftover }
  return (n, (← get).leftover / step)

/-- Sends a frame to the renderer, if there is one. -/
def present : EngineAction Unit := do
  let e ← get
  match e.renderer with
  | none => return
  | some (id, rendering) =>
    let rendering ← ofExcept (rendering.step id e.world)
    set { e with renderer := some (id, rendering) }

/-- A negative delta, or one that is no number, counts as zero. -/
def effectiveDelta (dt : F32) : F32 := if dt.isFinite ∧ 0 ≤ dt then dt else 0

/-- Advances by `dt` seconds. -/
def tick (dt : F32) : EngineAction TickStats := do
  let dt := effectiveDelta dt
  let (steps, alpha) ← match (← get).config.physics.fixedTimestep with
    | some step => simulateFixed step dt
    | none => do
      simulate dt
      pure (1, 0)
  present
  let e ← get
  set { e with frame := e.frame + 1 }
  return ⟨e.frame, steps, alpha⟩

/-! ## Receiving -/

/-- Contact events since the last call, oldest first. -/
def drainEvents (e : Engine) : List ContactEvent × Engine :=
  let (events, channel) := e.contact.events.drain
  (events, { e with contact := { e.contact with events := channel } })

/-- The systems of a simulation step, in the order they run. -/
def systemNames (e : Engine) : List String :=
  [Motion.systemName, Contact.systemName, Upkeep.systemName] ++ e.behaviors.names

end Engine

end SceneEngine
