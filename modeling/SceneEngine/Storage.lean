/-
All components of a world: one column per registered kind.

A kind is registered on first use and given a number, the next one, which is its bit in
signatures and the place of its column in the table of columns. The table holds columns
of all kinds, so that what stands at a place has to be a column of the kind looked for:
a lookup goes from the kind to its number, from there to the entry, and takes the entry
for a column of the kind only if it is one.
-/
import SceneEngine.Storage.Column
import SceneEngine.Text.Quote

namespace SceneEngine

/-! ## Kinds as keys -/

namespace Kind

/-- Kinds in the order they are listed in, custom ones by their tags. -/
def rank : Kind → Nat
  | transform => 0
  | body => 1
  | collider => 2
  | camera => 3
  | drawable => 4
  | custom tag => tag + 5

theorem rank_inj {a b : Kind} (h : a.rank = b.rank) : a = b := by
  cases a <;> cases b <;> simp [rank] at h ⊢
  omega

instance : Ord Kind := ⟨compareOn rank⟩

instance : Std.TransOrd Kind := inferInstanceAs (Std.TransCmp (compareOn rank))

instance : Std.LawfulEqOrd Kind where
  eq_of_compare h := rank_inj (Nat.compare_eq_eq.mp h)

end Kind

/-- An entry of the table of columns as a column of kind `k`, if it is one. -/
def Column.downcast? (k : Kind) (entry : Sigma Column) : Option (Column k) :=
  if h : entry.1 = k then some (h ▸ entry.2) else none

/-! ## Storage -/

structure Storage where
  /-- The numbers of the registered kinds. -/
  typeIds : Std.TreeMap Kind UInt8
  /-- By number. -/
  columns : List (Sigma Column)
  /-- How many kinds can be registered. -/
  limit : Nat

namespace Storage

variable {β : Type}

/-- Storage for at most `limit` kinds, and no more than a signature has bits. -/
def new (limit : Nat) : Storage := ⟨∅, [], min limit signatureBits⟩

/-- How many kinds are registered. -/
def count (s : Storage) : Nat := s.columns.length

/-- The kinds in order of registration. -/
def kinds (s : Storage) : List Kind := s.columns.map Sigma.fst

/-- The number of a kind. -/
def typeId? (s : Storage) (k : Kind) : Option Nat := s.typeIds[k]?.map UInt8.toNat

/-- The kind of a number. -/
def kindAt? (s : Storage) (typeId : Nat) : Option Kind := s.kinds[typeId]?

/-- The number of a kind, which is registered if it is new. -/
def registerComponent (k : Kind) : Change Storage Nat := do
  let s ← get
  match s.typeId? k with
  | some typeId => return typeId
  | none =>
    let next := s.count
    if s.limit ≤ next then throw (.componentCapacityExceeded s.limit)
    -- The limit is at most the width of a signature, so the number is not cut short.
    let id := UInt8.ofNat next
    modify fun s => { s with typeIds := s.typeIds.insert k id }
    modify fun s => { s with columns := s.columns ++ [⟨k, .empty⟩] }
    return id.toNat

/-! ## Columns by kind -/

/-- The number of a kind that should be registered. -/
def require (s : Storage) (k : Kind) : Except SceneError Nat :=
  match s.typeId? k with
  | some typeId => .ok typeId
  | none => .error (.componentNotRegistered k)

/-- What stands at the number of a kind, as the column of that kind. -/
def typed (k : Kind) (entry : Option (Sigma Column)) : Except SceneError (Column k) :=
  match entry.bind (Column.downcast? k) with
  | some c => .ok c
  | none => .error (.componentNotRegistered k)

/-- The column of a kind that should be registered. -/
def column (s : Storage) (k : Kind) : Except SceneError (Column k) := do
  let typeId ← s.require k
  typed k s.columns[typeId]?

def column? (s : Storage) (k : Kind) : Option (Column k) := (s.column k).toOption

/-- Puts a column at the number of its kind. -/
def setColumn (s : Storage) {k : Kind} (c : Column k) : Storage :=
  match s.typeId? k with
  | some typeId => { s with columns := s.columns.set typeId ⟨k, c⟩ }
  | none => s

/-- Changes the column of a registered kind in place. -/
def onColumn (k : Kind) (change : Change (Column k) β) : Change Storage β := do
  let c ← ofExcept ((← get).column k)
  change.within (fun _ => c) fun s c => s.setColumn c

/-! ## Components -/

/-- Gives `e` a component of a registered kind. -/
def addComponent (k : Kind) (e : EntityId) (value : k.Value) : Change Storage Unit :=
  onColumn k (Column.insertComponent e value)

/-- Takes a component of a registered kind from `e`. -/
def removeComponent (k : Kind) (e : EntityId) : Change Storage k.Value :=
  onColumn k (Column.removeComponent e)

/-- The component of `e`, if the kind is registered and `e` has one. -/
def get? (s : Storage) (k : Kind) (e : EntityId) : Option k.Value := (s.column? k).bind (·.get? e)

/-- Replaces the component of `e`, if it has one. -/
def set? (s : Storage) (k : Kind) (e : EntityId) (value : k.Value) : Option Storage := do
  let c ← (← s.column? k).set? e value
  return s.setColumn c

/-- The component of `e` in what stands at the number of a kind. -/
def componentIn (k : Kind) (e : EntityId) (entry : Option (Sigma Column)) :
    Except SceneError k.Value := do
  match (← typed k entry).get? e with
  | some value => return value
  | none => throw (.componentMissing e k)

/-- What stands at two different places, for both to be changed. The table is split before
the later of the two, so that each is in a part of its own. -/
def twoEntries (s : Storage) (i j : Nat) : Option (Sigma Column) × Option (Sigma Column) :=
  let (low, high) := s.columns.splitAt (max i j)
  if i < j then (low[i]?, high[0]?) else (high[0]?, low[j]?)

/-- Two components of different kinds of one entity, both to be changed. -/
def getPair (a b : Kind) (e : EntityId) : Change Storage (a.Value × b.Value) := do
  let s ← get
  let i ← ofExcept (s.require a)
  let j ← ofExcept (s.require b)
  if i = j then throw (.aliasedComponents a)
  let (first, second) := s.twoEntries i j
  let x ← ofExcept (componentIn a e first)
  let y ← ofExcept (componentIn b e second)
  return (x, y)

/-- Two components of different kinds of one entity, or why there are none. -/
def pair (s : Storage) (a b : Kind) (e : EntityId) : Except SceneError (a.Value × b.Value) :=
  ((getPair a b e).outcome s).map Prod.fst

/-- Replaces two components of different kinds of one entity. -/
def setPair (s : Storage) (a b : Kind) (e : EntityId) (x : a.Value) (y : b.Value) : Storage :=
  let s := (s.set? a e x).getD s
  (s.set? b e y).getD s

/-- Drops every component of `e`. -/
def discard (s : Storage) (e : EntityId) : Storage :=
  { s with columns := s.columns.map fun entry => ⟨entry.1, (entry.2.discard e).2⟩ }

/-- How many components are stored of the kind of a number. -/
def storedCount (s : Storage) (typeId : Nat) : Nat := s.columns[typeId]?.elim 0 (·.2.size)

/-- Whether `e` has a component of the kind of a number. -/
def stores (s : Storage) (typeId : Nat) (e : EntityId) : Bool :=
  s.columns[typeId]?.elim false (·.2.contains e)

/-- The registered kinds, named by `label`, and the limit. -/
def describe (label : Kind → String) (s : Storage) : String :=
  let names := s.kinds.map fun k => Text.quote (label k)
  "ComponentManager \x7b registered: [" ++ String.intercalate ", " names ++
    "], max_components: " ++ toString s.limit ++ " \x7d"

end Storage

end SceneEngine
