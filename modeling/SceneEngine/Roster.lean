/-
Which entities each system works on.

A system asks for a signature; its members are kept in ascending order and change
with the signatures of entities. Systems are numbered in the order they are registered,
and a name is given once.
-/
import SceneEngine.Change
import SceneEngine.Signature
import Std.Data.TreeMap

namespace SceneEngine

/-- Adds an id to an ascending list. -/
def insertId (e : EntityId) : List EntityId → List EntityId
  | [] => [e]
  | x :: rest => if e < x then e :: x :: rest else if e = x then x :: rest else x :: insertId e rest

/-- One system: its name, what it asks for, and who has it. -/
structure Membership where
  name : String
  required : Signature
  members : List EntityId
deriving DecidableEq

namespace Membership

/-- Takes `e` in or out according to its signature. -/
def update (m : Membership) (e : EntityId) (s : Signature) : Membership :=
  if s.contains m.required then { m with members := insertId e m.members }
  else { m with members := m.members.filter (· ≠ e) }

/-- Takes `e` out. -/
def drop (m : Membership) (e : EntityId) : Membership :=
  { m with members := m.members.filter (· ≠ e) }

/-- Exactly the entities that have what is asked for. -/
def seed (m : Membership) (living : List (EntityId × Signature)) : Membership :=
  { m with members := (living.filter fun entry => entry.2.contains m.required).map Prod.fst }

end Membership

structure Roster where
  /-- In order of registration. -/
  systems : List Membership
  idOfName : Std.TreeMap String SystemId

namespace Roster

def empty : Roster := ⟨[], ∅⟩

/-- The system of a name. -/
def find? (r : Roster) (name : String) : Option SystemId := r.idOfName[name]?

/-- Registers a system without members. -/
def registerSystem (name : String) (required : Signature) : Change Roster SystemId := do
  if ((← get).find? name).isSome then throw (.systemAlreadyRegistered name)
  let id := (← get).systems.length
  modify fun r => { r with systems := r.systems ++ [⟨name, required, []⟩] }
  modify fun r => { r with idOfName := r.idOfName.insert name id }
  return id

def get (r : Roster) (id : SystemId) : Except SceneError Membership :=
  match r.systems[id]? with
  | some m => .ok m
  | none => .error (.systemNotRegistered id)

def members (r : Roster) (id : SystemId) : Except SceneError (List EntityId) :=
  (r.get id).map Membership.members

/-- Fills a registered system from the live entities. -/
def seedSystem (id : SystemId) (living : List (EntityId × Signature)) : Change Roster Unit := do
  let m ← ofExcept ((← MonadState.get).get id)
  modify fun r => { r with systems := r.systems.set id (m.seed living) }

/-- An entity has a new signature. -/
def signatureChanged (r : Roster) (e : EntityId) (s : Signature) : Roster :=
  { r with systems := r.systems.map (·.update e s) }

/-- An entity is gone. -/
def entityDestroyed (r : Roster) (e : EntityId) : Roster :=
  { r with systems := r.systems.map (·.drop e) }

end Roster

end SceneEngine
