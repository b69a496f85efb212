/-
Settings as a document.

Each section is a table, every setting has a standard value, and settings nobody
knows are passed over, so an empty document is the standard configuration. A section
may also be an array, which gives its settings in order. Integers are taken for
floats, never the other way.

Single precision is written as double precision, which holds every single value, and
read back by rounding. How a document looks is left to a `Toml.Codec`.
-/
import SceneEngine.Config
import SceneEngine.Toml.Writer

namespace SceneEngine

namespace Toml.Value

/-- A number of things. -/
def count? : Value → Option Nat
  | integer n => if 0 ≤ n then some n.toNat else none
  | _ => none

/-- A float, or an integer in its place. -/
def number? {f : Format} : Value → Option (Binary f)
  | float x => some x.convert
  | integer n => some (if n < 0 then (Binary.ofNat n.natAbs).neg else .ofNat n.natAbs)
  | _ => none

def text? : Value → Option String
  | text s => some s
  | _ => none

def boolean? : Value → Option Bool
  | boolean b => some b
  | _ => none

/-- The first three items of an array. -/
def vector? : Value → Option (Vec F32 3)
  | array (x :: y :: z :: _) => do return .of3 (← x.number?) (← y.number?) (← z.number?)
  | _ => none

/-- A single value at the precision of a document. -/
def single (x : F32) : Value := .float x.convert

end Toml.Value

/-- A section of a document: the value of a setting, by its name and its place among
the settings of the section. -/
abbrev Section := String → Nat → Option Toml.Value

namespace Section

/-- The section a value stands for. A moment is a section without settings. -/
def ofValue? : Toml.Value → Option Section
  | .table _ entries => some fun name _ => entries.lookup name
  | .array items => some fun _ place => items[place]?
  | .series tables => some fun _ place => tables[place]?.map (.table .header)
  | .moment => some fun _ _ => none
  | _ => none

/-- The section of a name, empty when it is not there. -/
def find? (entries : Toml.Entries) (name : String) : Option Section :=
  match entries.lookup name with
  | none => some fun _ _ => none
  | some value => ofValue? value

/-- A setting, or its standard value. -/
def setting {β : Type} (s : Section) (name : String) (place : Nat) (read : Toml.Value → Option β)
    (standard : β) : Option β :=
  match s name place with
  | none => some standard
  | some value => read value

end Section

namespace CapacityConfig

def ofSection? (s : Section) : Option CapacityConfig := do
  return {
    maxEntities := ← s.setting "max_entities" 0 Toml.Value.count? standard.maxEntities
    maxComponents := ← s.setting "max_components" 1 Toml.Value.count? standard.maxComponents }

def entries (c : CapacityConfig) : Toml.Entries :=
  [("max_entities", .integer c.maxEntities), ("max_components", .integer c.maxComponents)]

end CapacityConfig

namespace ToleranceConfig

def ofSection? (s : Section) : Option ToleranceConfig := do
  return {
    absoluteEpsilon :=
      ← s.setting "absolute_epsilon" 0 Toml.Value.number? standard.absoluteEpsilon
    relativeEpsilon :=
      ← s.setting "relative_epsilon" 1 Toml.Value.number? standard.relativeEpsilon }

def entries (c : ToleranceConfig) : Toml.Entries :=
  [("absolute_epsilon", .float c.absoluteEpsilon), ("relative_epsilon", .float c.relativeEpsilon)]

end ToleranceConfig

namespace PhysicsConfig

def ofSection? (s : Section) : Option PhysicsConfig := do
  return {
    gravity := ← s.setting "gravity" 0 Toml.Value.vector? standard.gravity
    gravityScale := ← s.setting "gravity_scale" 1 Toml.Value.number? standard.gravityScale
    forceScale := ← s.setting "force_scale" 2 Toml.Value.number? standard.forceScale
    airFriction := ← s.setting "air_friction" 3 Toml.Value.number? standard.airFriction
    bounciness := ← s.setting "bounciness" 4 Toml.Value.number? standard.bounciness
    bouncinessThreshold :=
      ← s.setting "bounciness_threshold" 5 Toml.Value.number? standard.bouncinessThreshold
    fixedTimestep :=
      ← s.setting "fixed_timestep" 6 (fun v => v.number?.map some) standard.fixedTimestep
    eventCapacity := ← s.setting "event_capacity" 7 Toml.Value.count? standard.eventCapacity }

/-- An absent timestep has no entry. -/
def entries (c : PhysicsConfig) : Toml.Entries :=
  [("gravity", .array (c.gravity.toList.map .single)), ("gravity_scale", .single c.gravityScale),
    ("force_scale", .single c.forceScale), ("air_friction", .single c.airFriction),
    ("bounciness", .single c.bounciness),
    ("bounciness_threshold", .single c.bouncinessThreshold)] ++
    c.fixedTimestep.elim [] (fun step => [("fixed_timestep", .single step)]) ++
    [("event_capacity", .integer c.eventCapacity)]

end PhysicsConfig

namespace LoggingConfig

def ofSection? (s : Section) : Option LoggingConfig := do
  return {
    level := ← s.setting "level" 0 Toml.Value.text? standard.level
    json := ← s.setting "json" 1 Toml.Value.boolean? standard.json }

def entries (c : LoggingConfig) : Toml.Entries :=
  [("level", .text c.level), ("json", .boolean c.json)]

end LoggingConfig

namespace EngineConfig

/-! ## Reading -/

def ofEntries? (entries : Toml.Entries) : Option EngineConfig := do
  return {
    capacity := ← CapacityConfig.ofSection? (← Section.find? entries "ecs")
    tolerance := ← ToleranceConfig.ofSection? (← Section.find? entries "math")
    physics := ← PhysicsConfig.ofSection? (← Section.find? entries "physics")
    logging := ← LoggingConfig.ofSection? (← Section.find? entries "logging") }

/-- Reads a document and checks the settings in it. -/
def parseBy (codec : Toml.Codec) (text : String) : Except SceneError EngineConfig := do
  match (codec.read text).bind ofEntries? with
  | none => throw (.config .malformed)
  | some config =>
    config.validate
    return config

def parse : String → Except SceneError EngineConfig := parseBy .standard

/-- Reads the document at a path, given what reading it came to: the text, or why there
is none. -/
def load (path : String) : Except String String → Except SceneError EngineConfig
  | .error reason => .error (.config (.unreadable path reason))
  | .ok text => parse text

/-! ## Writing -/

/-- The settings by section. -/
def tables (c : EngineConfig) : Toml.Tables :=
  [("ecs", c.capacity.entries), ("math", c.tolerance.entries), ("physics", c.physics.entries),
    ("logging", c.logging.entries)]

/-- Writes the settings as a document, in range or not. -/
def renderBy (codec : Toml.Codec) (c : EngineConfig) : Except SceneError String :=
  match codec.write c.tables with
  | some text => .ok text
  | none => .error (.config .unrepresentable)

def render : EngineConfig → Except SceneError String := renderBy .standard

end EngineConfig

end SceneEngine
