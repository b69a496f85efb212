/-
All components of one kind, without gaps.

Slot `i` holds a value and its owner; `slotOf` finds the slot of an owner. Removal
moves the last slot into the one set free, so the order of slots tells of past
removals.
-/
import SceneEngine.Body
import SceneEngine.Camera
import SceneEngine.Change
import SceneEngine.Collider
import SceneEngine.Frame
import Std.Data.TreeMap

namespace SceneEngine

/-- What a component of each kind is. -/
abbrev Kind.Value : Kind → Type
  | .transform => Transform F32
  | .body => Body
  | .collider => Collider
  | .camera => Camera F32
  | .drawable => Drawable
  | .custom _ => Int64

/-- The array with the last element moved into place `i`. -/
def swapRemove {α : Type} (xs : Array α) (i : Nat) : Array α :=
  match xs.back? with
  | none => xs
  | some last => (xs.setIfInBounds i last).pop

structure Column (k : Kind) where
  owners : Array EntityId
  values : Array k.Value
  slotOf : Std.TreeMap EntityId Nat

namespace Column

variable {k : Kind}

def empty : Column k := ⟨#[], #[], ∅⟩

def size (c : Column k) : Nat := c.values.size

def isEmpty (c : Column k) : Bool := c.values.isEmpty

def contains (c : Column k) (e : EntityId) : Bool := c.slotOf.contains e

/-- The component of `e`, if it has one. -/
def get? (c : Column k) (e : EntityId) : Option k.Value := c.slotOf[e]?.bind (c.values[·]?)

/-- Appends a component for `e`, which must have none. -/
def insertComponent (e : EntityId) (value : k.Value) : Change (Column k) Unit := do
  let c ← get
  if c.contains e then throw (.componentAlreadyPresent e k)
  set { c with
    owners := c.owners.push e
    values := c.values.push value
    slotOf := c.slotOf.insert e c.values.size }

/-- The column without slot `i`, which `e` owns. -/
def removeSlot (c : Column k) (e : EntityId) (i : Nat) : Column k :=
  let owners := swapRemove c.owners i
  let slotOf := c.slotOf.erase e
  { owners
    values := swapRemove c.values i
    slotOf := owners[i]?.elim slotOf fun moved => slotOf.insert moved i }

/-- Takes out the component of `e`, which must have one. -/
def removeComponent (e : EntityId) : Change (Column k) k.Value := do
  let c ← get
  match c.slotOf[e]?.bind fun i => c.values[i]?.map (i, ·) with
  | none => throw (.componentMissing e k)
  | some (i, value) =>
    set (c.removeSlot e i)
    return value

/-- The column an insertion leaves, or how it fails. -/
def insert (c : Column k) (e : EntityId) (value : k.Value) : Except SceneError (Column k) :=
  ((insertComponent e value).outcome c).map Prod.snd

/-- What a removal answers, with the column it leaves, or how it fails. -/
def remove (c : Column k) (e : EntityId) : Except SceneError (k.Value × Column k) :=
  (removeComponent e).outcome c

/-- The column without a component of `e`, and whether there was one. -/
def discard (c : Column k) (e : EntityId) : Bool × Column k :=
  match removeComponent e c with
  | .ok _ c => (true, c)
  | .error _ c => (false, c)

/-- Replaces the component of `e`, if it has one. -/
def set? (c : Column k) (e : EntityId) (value : k.Value) : Option (Column k) :=
  c.slotOf[e]?.map fun i => { c with values := c.values.setIfInBounds i value }

/-- Owners and values, slot by slot. -/
def toList (c : Column k) : List (EntityId × k.Value) := c.owners.toList.zip c.values.toList

/-- Changes every value. -/
def mapValues (c : Column k) (g : k.Value → k.Value) : Column k := { c with values := c.values.map g }

end Column

end SceneEngine
