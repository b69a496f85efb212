/-
Handing out entity ids.

Ids never used come first, in ascending order. Once all are taken, freed ids come
back in the order they were freed, so the id destroyed last is the last to be used
again. A live id has a signature and possibly a name, and no two live ids share
one.
-/
import SceneEngine.Change
import SceneEngine.Signature
import Std.Data.TreeMap

namespace SceneEngine

structure EntityTable where
  /-- Freed ids, oldest first. -/
  available : List EntityId
  /-- The least id never handed out. -/
  nextFresh : Nat
  /-- By id; none while the id is free. -/
  signatures : Array (Option Signature)
  idOfName : Std.TreeMap String EntityId
  nameOfId : Std.TreeMap EntityId String
  /-- How many ids are live. -/
  living : Nat
  /-- How many can be. -/
  limit : Nat

namespace EntityTable

/-- A table for `limit` entities, whatever the limit. -/
def withLimit (limit : Nat) : EntityTable := ⟨[], 0, #[], ∅, ∅, 0, limit⟩

/-- A table for `limit` entities, at least one and no more than there are ids. -/
def new (limit : Nat) : Except SceneError EntityTable :=
  if limit = 0 ∨ maxEntityId < limit then .error (.config .entityLimit)
  else .ok (withLimit limit)

def standard : EntityTable := withLimit CapacityConfig.standard.maxEntities

/-- The signature of a live entity. -/
def signature? (t : EntityTable) (id : EntityId) : Option Signature := t.signatures[id]?.join

def isAlive (t : EntityTable) (id : EntityId) : Bool := (t.signature? id).isSome

def signature (t : EntityTable) (id : EntityId) : Except SceneError Signature :=
  match t.signature? id with
  | some s => .ok s
  | none => .error (.entityNotAlive id)

/-- Takes the next id to hand out. One that was never used gets a slot. -/
def allocate : Change EntityTable EntityId := do
  let t ← get
  if t.nextFresh < t.limit then
    set { t with nextFresh := t.nextFresh + 1, signatures := t.signatures.push none }
    return t.nextFresh
  else
    match t.available with
    | [] => throw (.entityCapacityExceeded t.limit)
    | id :: rest =>
      set { t with available := rest }
      return id

/-- Gives the live entity `id` a name nobody has. -/
def setName (t : EntityTable) (id : EntityId) (name : String) : EntityTable :=
  { t with idOfName := t.idOfName.insert name id, nameOfId := t.nameOfId.insert id name }

/-- Whether a live entity has this name. -/
def isTaken (t : EntityTable) : Option String → Bool
  | none => false
  | some name => t.idOfName.contains name

/-- Creates an entity with an empty signature. The name is checked before there is
seen to be room. -/
def createEntity (name : Option String) : Change EntityTable EntityId := do
  if let some name := name then
    if (← get).isTaken (some name) then throw (.duplicateEntityName name)
  let id ← allocate
  modify fun t => { t with signatures := t.signatures.setIfInBounds id (some .empty) }
  if let some name := name then
    modify (·.setName id name)
  modify fun t => { t with living := t.living + 1 }
  return id

/-- Takes the name of an entity away, if it has one. -/
def clearName (t : EntityTable) (id : EntityId) : EntityTable :=
  match t.nameOfId[id]? with
  | none => t
  | some name => { t with idOfName := t.idOfName.erase name, nameOfId := t.nameOfId.erase id }

/-- Destroys a live entity: frees its name and queues its id. -/
def destroyEntity (id : EntityId) : Change EntityTable Unit := do
  if !(← get).isAlive id then throw (.entityNotAlive id)
  modify fun t => { t with signatures := t.signatures.setIfInBounds id none }
  modify (·.clearName id)
  modify fun t => { t with available := t.available ++ [id], living := t.living - 1 }

/-- Replaces the signature of a live entity. -/
def changeSignature (id : EntityId) (s : Signature) : Change EntityTable Unit := do
  if !(← get).isAlive id then throw (.entityNotAlive id)
  modify fun t => { t with signatures := t.signatures.setIfInBounds id (some s) }

/-- What a creation answers, with the table it leaves, or how it fails. -/
def create (t : EntityTable) (name : Option String) : Except SceneError (EntityId × EntityTable) :=
  (createEntity name).outcome t

/-- The table a destruction leaves, or how it fails. -/
def destroy (t : EntityTable) (id : EntityId) : Except SceneError EntityTable :=
  ((destroyEntity id).outcome t).map Prod.snd

/-- The table a new signature leaves, or how it fails. -/
def setSignature (t : EntityTable) (id : EntityId) (s : Signature) : Except SceneError EntityTable :=
  ((changeSignature id s).outcome t).map Prod.snd

def byName? (t : EntityTable) (name : String) : Option EntityId := t.idOfName[name]?

def name? (t : EntityTable) (id : EntityId) : Option String := t.nameOfId[id]?

/-- Live entities with their signatures, in ascending order. -/
def livingEntities (t : EntityTable) : List (EntityId × Signature) :=
  (List.range t.signatures.size).filterMap fun id => (t.signature? id).map fun s => (id, s)

end EntityTable

end SceneEngine
