/-
The contact step: events for pairs that begin to overlap, movement undone where it
is blocked, and a report on every solid collider.

`stepOver` takes the pairs to look at as a parameter; `step` runs it over the
candidate pairs.
-/
import SceneEngine.Channel
import SceneEngine.Contact.Axes
import SceneEngine.Contact.Response

namespace SceneEngine

/-- What contact remembers from step to step. -/
structure ContactMemory where
  config : PhysicsConfig
  events : Channel ContactEvent
  /-- Pairs that overlapped in the last step, the lower id first, in ascending order. -/
  activePairs : List (EntityId × EntityId)
deriving DecidableEq

namespace Contact

/-- The name the system is registered under. -/
def systemName : String := "PhysicsCollisionSystem"

/-- What the system asks for. -/
def required : List Kind := [.transform, .collider]

/-! ## Events -/

variable {n : Nat}

/-- The pairs that overlap before anything is undone, as events. -/
def overlaps (bodies : Vector Solid n) (pairs : List (Pair n)) : List ContactEvent :=
  pairs.filterMap fun (i, j) =>
    let a := bodies.get i
    let b := bodies.get j
    let overlap := a.current.intersectionVolume b.current
    if 0 < overlap then some ⟨min a.entity b.entity, max a.entity b.entity, overlap⟩ else none

/-- The events not yet told. -/
def freshEvents (active : List (EntityId × EntityId)) (found : List ContactEvent) :
    List ContactEvent :=
  found.filter fun event => !active.contains (event.entity, event.other)

end Contact

namespace ContactMemory

def new (config : PhysicsConfig) : ContactMemory := ⟨config, .new config.eventCapacity, []⟩

/-- Tells of every pair that begins to overlap and remembers those that do. -/
def observe (m : ContactMemory) (found : List ContactEvent) : ContactMemory :=
  { m with
    events := (Contact.freshEvents m.activePairs found).foldl Channel.send m.events
    activePairs := found.map fun event => (event.entity, event.other) }

end ContactMemory

namespace Contact

variable {n : Nat}

/-! ## Resolution -/

/-- Undoes the movement of one body on the axes it is blocked on. -/
def resolve (config : PhysicsConfig) (s : Solid) (c : AxisContacts) : Action Unit := do
  let wasOnGround := (← World.read .collider s.entity).report.onGround
  if c.isBlocked then
    let (t, b) ← World.readPair .transform .body s.entity
    let velocity := respond config.bounciness config.bouncinessThreshold b.velocity c.blocked
      wasOnGround b.friction c.friction
    World.writePair .transform .body s.entity (t.setPosition (s.restingPosition c))
      { b with velocity }
  let collider ← World.read .collider s.entity
  World.write .collider s.entity { collider with
    report := { collider.report with
      blockedAxes := c.blocked, wasOnGround, onGround := c.onGround } }

/-- The bodies that overlap body `i` once all have come to rest, in ascending order. -/
def restingOverlaps (bodies : Vector Solid n) (pairs : List (Pair n))
    (resting : Vector (Box F32) n) (i : Fin n) : List EntityId :=
  sortBy (fun e f => decide (e ≤ f)) (pairs.filterMap fun (a, b) =>
    if 0 < (resting.get a).intersectionVolume (resting.get b) then
      if a = i then some (bodies.get b).entity
      else if b = i then some (bodies.get a).entity
      else none
    else none)

/-- Writes who a body overlaps and who blocked it. -/
def report (e : EntityId) (collidingWith blockedBy : List EntityId) : Action Unit := do
  let collider ← World.read .collider e
  World.write .collider e { collider with
    report := { collider.report with
      colliding := !collidingWith.isEmpty || !blockedBy.isEmpty, collidingWith, blockedBy } }

/-- Clears the report of a collider that is not solid. -/
def clearReport (e : EntityId) : Action Unit := do
  let collider ← World.read .collider e
  if !collider.solid then World.write .collider e { collider with report := .clear }

/-- Resolves all bodies from the snapshot and reports on every member of the system. -/
def settle (config : PhysicsConfig) (bodies : Vector Solid n) (pairs : List (Pair n))
    (id : SystemId) : Action Unit := do
  let contacts := Vector.ofFn (contactsOf bodies pairs)
  let resting := Vector.ofFn fun i : Fin n => (bodies.get i).restingBox (contacts.get i)
  (List.finRange n).forM fun i => do
    if (bodies.get i).dynamic then resolve config (bodies.get i) (contacts.get i)
  (List.finRange n).forM fun i =>
    report (bodies.get i).entity (restingOverlaps bodies pairs resting i)
      (sortBy (fun e f => decide (e ≤ f)) (contacts.get i).blockedBy)
  (← World.readMembers id).forM clearReport

/-- One contact step over the given pairs of the snapshot. -/
def stepOver (pairsOf : {n : Nat} → Vector Solid n → List (Pair n)) (m : ContactMemory)
    (id : SystemId) (w : World) : ContactMemory × EStateM.Result SceneError World Unit :=
  match gather w id with
  | .error e => (m, .error e w)
  | .ok solids =>
    let bodies := solids.toVector
    let pairs := pairsOf bodies
    (m.observe (overlaps bodies pairs), settle m.config bodies pairs id w)

/-- One contact step. -/
def step : ContactMemory → SystemId → World →
    ContactMemory × EStateM.Result SceneError World Unit :=
  stepOver candidatePairs

end Contact

end SceneEngine
