/-
A world: entities, their components, and the systems that work on them.

Every operation that can change a world is an `Action`. An action that fails leaves
the world as far as it had come, so what a failure does to a world is part of what
an action means. A part of the world is changed by its own changes, in the world.

Entities, components and systems are kept in step here and nowhere else: an entity
is a member of a system when its signature has all the system asks for, and it has a
bit in its signature when it has the component.
-/
import SceneEngine.EntityTable
import SceneEngine.Roster
import SceneEngine.Storage

namespace SceneEngine

structure World where
  entities : EntityTable
  storage : Storage
  roster : Roster
  /-- The tolerance of all comparisons. -/
  tolerance : Tolerance F64

/-- A change of a world that may fail on the way. -/
abbrev Action := Change World

namespace World

/-- An empty world. -/
def new (capacity : CapacityConfig) (tolerance : Tolerance F64) : Except SceneError World := do
  let entities ← EntityTable.new capacity.maxEntities
  return ⟨entities, .new capacity.maxComponents, .empty, tolerance⟩

/-- An empty world of the standard capacity. -/
def standard : World :=
  ⟨.standard, .new CapacityConfig.standard.maxComponents, .empty, .single⟩

/-! ## Changing a part -/

section Parts

variable {β : Type}

def onEntities (change : Change EntityTable β) : Action β :=
  change.within World.entities fun w entities => { w with entities }

def onStorage (change : Change Storage β) : Action β :=
  change.within World.storage fun w storage => { w with storage }

def onRoster (change : Change Roster β) : Action β :=
  change.within World.roster fun w roster => { w with roster }

end Parts

/-! ## Entities -/

/-- Creates an entity, with a name or without. -/
def createEntity (name : Option String) : Action EntityId :=
  onEntities (EntityTable.createEntity name)

/-- Destroys an entity: its components first, then its memberships, and its id last. -/
def destroyEntity (e : EntityId) : Action Unit := do
  if !(← get).entities.isAlive e then throw (.entityNotAlive e)
  modify fun w => { w with storage := w.storage.discard e }
  modify fun w => { w with roster := w.roster.entityDestroyed e }
  onEntities (EntityTable.destroyEntity e)

def isAlive (w : World) (e : EntityId) : Bool := w.entities.isAlive e

def signature (w : World) (e : EntityId) : Except SceneError Signature := w.entities.signature e

/-- Live entities, in ascending order. -/
def livingEntities (w : World) : List EntityId := w.entities.livingEntities.map Prod.fst

/-! ## Components -/

/-- The number of a kind, which is registered if it is new. -/
def registerComponent (k : Kind) : Action Nat := onStorage (Storage.registerComponent k)

/-- Gives an entity its new signature and tells the systems. -/
def changeSignature (e : EntityId) (s : Signature) : Action Unit := do
  onEntities (EntityTable.changeSignature e s)
  modify fun w => { w with roster := w.roster.signatureChanged e s }

/-- Gives an entity a component, registering its kind on first use. -/
def addComponent (k : Kind) (e : EntityId) (value : k.Value) : Action Unit := do
  let signature ← ofExcept ((← get).signature e)
  let typeId ← registerComponent k
  onStorage (Storage.addComponent k e value)
  changeSignature e (signature.insert typeId)

/-- Takes a component from an entity. -/
def removeComponent (k : Kind) (e : EntityId) : Action k.Value := do
  let w ← get
  let signature ← ofExcept (w.signature e)
  match w.storage.typeId? k with
  | none => throw (.componentNotRegistered k)
  | some typeId =>
    let value ← onStorage (Storage.removeComponent k e)
    changeSignature e (signature.erase typeId)
    return value

/-- The component of an entity, if it has one. -/
def get? (w : World) (k : Kind) (e : EntityId) : Option k.Value := w.storage.get? k e

/-- The component of an entity that should have one. -/
def component (w : World) (k : Kind) (e : EntityId) : Except SceneError k.Value :=
  match w.get? k e with
  | some value => .ok value
  | none => .error (.componentMissing e k)

def hasComponent (w : World) (k : Kind) (e : EntityId) : Bool := (w.get? k e).isSome

/-- Reads the component of an entity that should have one. -/
def read (k : Kind) (e : EntityId) : Action k.Value := do ofExcept ((← get).component k e)

/-- Replaces the component of an entity that should have one. -/
def write (k : Kind) (e : EntityId) (value : k.Value) : Action Unit := do
  let w ← get
  match w.storage.set? k e value with
  | some storage => set { w with storage }
  | none => throw (.componentMissing e k)

/-- Reads two components of different kinds of one entity. -/
def readPair (a b : Kind) (e : EntityId) : Action (a.Value × b.Value) :=
  onStorage (Storage.getPair a b e)

/-- Replaces two components of different kinds of one entity, both of which it has. -/
def writePair (a b : Kind) (e : EntityId) (x : a.Value) (y : b.Value) : Action Unit :=
  modify fun w => { w with storage := w.storage.setPair a b e x y }

/-! ## Systems -/

/-- The members of a system, in ascending order. -/
def members (w : World) (id : SystemId) : Except SceneError (List EntityId) := w.roster.members id

/-- The members of a system as they are now. -/
def readMembers (id : SystemId) : Action (List EntityId) := do ofExcept ((← get).members id)

/-- Registers a system; the live entities that have what it asks for are its members. They
are looked up again in the end, to be counted. -/
def registerSystem (name : String) (required : Signature) : Action SystemId := do
  let id ← onRoster (Roster.registerSystem name required)
  let living := (← get).entities.livingEntities
  onRoster (Roster.seedSystem id living)
  let _ ← readMembers id
  return id

/-- Registers the kinds in order and gives the signature with all their bits. -/
def signatureFor (kinds : List Kind) : Action Signature :=
  kinds.foldlM (fun s k => return s.insert (← registerComponent k)) .empty

/-- Registers a system that asks for components of the given kinds. -/
def registerSystemFor (name : String) (kinds : List Kind) : Action SystemId := do
  registerSystem name (← signatureFor kinds)

/-! ## Checks -/

/-- Whether every system has exactly the members it should have. -/
def checkMembership (w : World) : Bool :=
  w.roster.systems.all fun m => m.members = (m.seed w.entities.livingEntities).members

/-- Whether every column holds exactly the live entities with its bit. -/
def checkStorage (w : World) : Bool :=
  let living := w.entities.livingEntities
  (List.range w.storage.count).all fun typeId =>
    (living.all fun (e, s) => s.has typeId == w.storage.stores typeId e) &&
      (living.filter fun (_, s) => s.has typeId).length == w.storage.storedCount typeId

end World

end SceneEngine
