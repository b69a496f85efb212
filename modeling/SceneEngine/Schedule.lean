/-
Systems a user adds, run in the order they were added.

A `Behavior` is a named rule over entities with given components. One that has a rule
for each of its members walks over them as they were when the step began.
-/
import SceneEngine.Text.Quote
import SceneEngine.World

namespace SceneEngine

structure Behavior where
  name : String
  /-- The components it asks for, in the order they are registered. -/
  required : List Kind
  /-- One step of the system with this id. -/
  step : SystemId → F32 → Action Unit

namespace Behavior

/-- A rule applied to each member in ascending order. -/
def perMember (name : String) (required : List Kind) (rule : EntityId → Action Unit) : Behavior :=
  ⟨name, required, fun id _ => do (← World.readMembers id).forM rule⟩

end Behavior

/-- Behaviors with the ids they are registered under, in the order they run. -/
abbrev Schedule := List (SystemId × Behavior)

namespace Schedule

/-- Registers a behavior in the world it is to run in and appends it. -/
def addBehavior (b : Behavior) : Change (World × Schedule) SystemId := do
  let id ← (World.registerSystemFor b.name b.required).within Prod.fst fun (_, s) w => (w, s)
  modify fun (w, s) => (w, s ++ [(id, b)])
  return id

/-- One step of all behaviors; the first failure ends it. -/
def run (s : Schedule) (dt : F32) : Action Unit := s.forM fun (id, b) => b.step id dt

/-- The names in the order they run. -/
def names (s : Schedule) : List String := s.map (·.2.name)

/-- The names as quoted text. -/
def describe (s : Schedule) : String :=
  "[" ++ String.intercalate ", " (s.names.map Text.quote) ++ "]"

end Schedule

end SceneEngine
