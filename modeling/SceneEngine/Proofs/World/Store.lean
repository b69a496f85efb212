/-
A world as it looks from outside: a finite map from live ids to a name and a finite
map of components, the kinds in the order they were registered, the next id and the
queue of free ones.

`Store.serve` answers every request from this alone. There are no slots, no bits and
no tables to keep in step: the signature of an entity is read off the kinds of its
components, and an id is found by looking for its name. What a request answers is
written down here in the order in which its faults are looked for.
-/
import Mathlib.Data.Finmap
import Mathlib.Data.Finset.Sort
import SceneEngine.Proofs.World.Requests

namespace SceneEngine

/-- What belongs to a live entity. -/
structure Record where
  name : Option String
  components : Finmap Kind.Value

structure Store where
  records : Finmap fun _ : EntityId => Record
  /-- In order of registration. -/
  kinds : List Kind
  /-- The least id never handed out. -/
  nextFresh : Nat
  /-- Freed ids, oldest first. -/
  free : List EntityId
  maxEntities : Nat
  maxKinds : Nat

namespace Store

def new (capacity : CapacityConfig) : Store :=
  ⟨∅, [], 0, [], capacity.maxEntities, min capacity.maxComponents signatureBits⟩

/-! ## Looking things up -/

def record? (s : Store) (e : EntityId) : Option Record := s.records.lookup e

def get? (s : Store) (k : Kind) (e : EntityId) : Option k.Value :=
  (s.record? e).bind (·.components.lookup k)

/-- The live ids, in ascending order. -/
def living (s : Store) : List EntityId := s.records.keys.sort

/-- The live entity of a name. -/
def byName? (s : Store) (name : String) : Option EntityId :=
  s.living.find? fun e => (s.record? e).any (·.name = some name)

/-- One bit for each kind the entity has a component of, at the place of the kind. -/
def signatureOf (s : Store) (r : Record) : Signature :=
  s.kinds.zipIdx.foldl (fun sig (k, i) => if k ∈ r.components then sig.insert i else sig) .empty

def component (s : Store) (k : Kind) (e : EntityId) : Except SceneError k.Value :=
  match s.get? k e with
  | some value => .ok value
  | none => .error (.componentMissing e k)

def signature (s : Store) (e : EntityId) : Except SceneError Signature :=
  match s.record? e with
  | some r => .ok (s.signatureOf r)
  | none => .error (.entityNotAlive e)

def pair (s : Store) (a b : Kind) (e : EntityId) : Except SceneError (a.Value × b.Value) :=
  if a ∉ s.kinds then .error (.componentNotRegistered a)
  else if b ∉ s.kinds then .error (.componentNotRegistered b)
  else if a = b then .error (.aliasedComponents a)
  else match s.get? a e, s.get? b e with
    | some x, some y => .ok (x, y)
    | none, _ => .error (.componentMissing e a)
    | _, none => .error (.componentMissing e b)

/-! ## Changes -/

def put (s : Store) (e : EntityId) (r : Record) : Store := { s with records := s.records.insert e r }

/-- The store with one component of a live entity replaced or added. -/
def setComponent (s : Store) (k : Kind) (e : EntityId) (value : k.Value) : Store :=
  match s.record? e with
  | none => s
  | some r => s.put e { r with components := r.components.insert k value }

def create (s : Store) (name : Option String) : Except SceneError EntityId × Store :=
  match name.filter fun n => (s.byName? n).isSome with
  | some taken => (.error (.duplicateEntityName taken), s)
  | none =>
    if s.nextFresh < s.maxEntities then
      (.ok s.nextFresh, { s.put s.nextFresh ⟨name, ∅⟩ with nextFresh := s.nextFresh + 1 })
    else match s.free with
      | [] => (.error (.entityCapacityExceeded s.maxEntities), s)
      | e :: rest => (.ok e, { s.put e ⟨name, ∅⟩ with free := rest })

def destroy (s : Store) (e : EntityId) : Except SceneError Unit × Store :=
  match s.record? e with
  | none => (.error (.entityNotAlive e), s)
  | some _ => (.ok (), { s with records := s.records.erase e, free := s.free ++ [e] })

def register (s : Store) (k : Kind) : Except SceneError Nat × Store :=
  if k ∈ s.kinds then (.ok (s.kinds.idxOf k), s)
  else if s.kinds.length < s.maxKinds then (.ok s.kinds.length, { s with kinds := s.kinds ++ [k] })
  else (.error (.componentCapacityExceeded s.maxKinds), s)

def add (s : Store) (k : Kind) (e : EntityId) (value : k.Value) : Except SceneError Unit × Store :=
  match s.record? e with
  | none => (.error (.entityNotAlive e), s)
  | some r =>
    match s.register k with
    | (.error err, s) => (.error err, s)
    | (.ok _, s) =>
      if k ∈ r.components then (.error (.componentAlreadyPresent e k), s)
      else (.ok (), s.setComponent k e value)

def remove (s : Store) (k : Kind) (e : EntityId) : Except SceneError k.Value × Store :=
  match s.record? e with
  | none => (.error (.entityNotAlive e), s)
  | some r =>
    if k ∉ s.kinds then (.error (.componentNotRegistered k), s)
    else match r.components.lookup k with
      | none => (.error (.componentMissing e k), s)
      | some value => (.ok value, s.put e { r with components := r.components.erase k })

def update (s : Store) (k : Kind) (e : EntityId) (change : k.Value → k.Value) :
    Except SceneError k.Value × Store :=
  match s.get? k e with
  | none => (.error (.componentMissing e k), s)
  | some x => (.ok (change x), s.setComponent k e (change x))

def update? (s : Store) (k : Kind) (e : EntityId) (change : k.Value → k.Value) :
    Except SceneError (Option k.Value) × Store :=
  match s.get? k e with
  | none => (.ok none, s)
  | some x => (.ok (some (change x)), s.setComponent k e (change x))

def updatePair (s : Store) (a b : Kind) (e : EntityId)
    (change : a.Value × b.Value → a.Value × b.Value) :
    Except SceneError (a.Value × b.Value) × Store :=
  match s.pair a b e with
  | .error err => (.error err, s)
  | .ok xy =>
    (.ok (change xy), (s.setComponent a e (change xy).1).setComponent b e (change xy).2)

/-! ## Requests -/

/-- What a request answers and leaves. -/
def serve (s : Store) : (r : Request) → Except SceneError r.Answer × Store
  | .create name => s.create name
  | .destroy e => s.destroy e
  | .register k => s.register k
  | .add k e value => s.add k e value
  | .remove k e => s.remove k e
  | .component k e => (s.component k e, s)
  | .component? k e => (.ok (s.get? k e), s)
  | .hasComponent k e => (.ok (s.get? k e).isSome, s)
  | .update k e change => s.update k e change
  | .update? k e change => s.update? k e change
  | .updatePair a b e change => s.updatePair a b e change
  | .isAlive e => (.ok (s.record? e).isSome, s)
  | .signature e => (s.signature e, s)
  | .byName name => (.ok (s.byName? name), s)
  | .nameOf e => (.ok ((s.record? e).bind Record.name), s)
  | .living => (.ok s.living, s)

/-- The answers to a series of requests, each served in the store the ones before it
leave. -/
def answers (s : Store) : List Request → List (Σ r : Request, Except SceneError r.Answer)
  | [] => []
  | r :: rest => ⟨r, (s.serve r).1⟩ :: (s.serve r).2.answers rest

end Store

end SceneEngine
