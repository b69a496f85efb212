/-
What a configuration document holds, and how its tables grow.

A document is read from the top. Each table remembers how it came to be, since that
decides what may still be added to it: a header may fill in a table that so far was
only passed on the way to a longer header, and nothing is ever defined twice.
-/
import SceneEngine.Binary.Rounding

namespace SceneEngine.Toml

/-- How a table came to be. -/
inductive Origin where
  /-- Written in braces, and complete as it stands. -/
  | inline
  /-- Opened by a header of its own. -/
  | header
  /-- Passed on the way to a longer header. -/
  | path
  /-- Passed on the way to a dotted key. -/
  | dotted
deriving DecidableEq, Repr

inductive Value where
  | text (s : String)
  | integer (n : Int)
  | float (x : F64)
  | boolean (b : Bool)
  /-- A date, a time or both. No setting is one, so it is not told which. -/
  | moment
  | array (items : List Value)
  | table (origin : Origin) (entries : List (String × Value))
  /-- Tables opened one after the other by headers in double brackets. -/
  | series (tables : List (List (String × Value)))

/-- The entries of a table. No key occurs twice. -/
abbrev Entries := List (String × Value)

namespace Entries

/-- Replaces the value of a key, or adds the key. -/
def put (key : String) (value : Value) : Entries → Entries
  | [] => [(key, value)]
  | entry :: rest => if entry.1 = key then (key, value) :: rest else entry :: put key value rest

/-- Adds a key that is not there yet. -/
def define (key : String) (value : Value) (entries : Entries) : Option Entries :=
  match entries.lookup key with
  | none => some (entries.put key value)
  | some _ => none

end Entries

/-- What leads to a table: the path of a header or that of a dotted key. -/
inductive Route where
  | header
  | key
deriving DecidableEq, Repr

namespace Route

/-- The origin of a table made on the way. -/
def leaves : Route → Origin
  | header => .path
  | key => .dotted

/-- Whether the way may lead through a table. A header passes all but those in braces,
a key only those without a header of their own. -/
def passes : Route → Origin → Bool
  | header, origin => origin != .inline
  | key, origin => origin == .path || origin == .dotted

/-- Changes the table at the end of a path, making tables on the way where there are
none. A series stands for its last table. The change is told the origin of the table
it is made to, that of the first being `origin`. -/
def modify (route : Route) (change : Origin → Entries → Option Entries) :
    (path : List String) → (origin : Origin) → Entries → Option Entries
  | [], origin, entries => change origin entries
  | name :: path, _, entries =>
    match entries.lookup name with
    | none => do
      let children ← route.modify change path route.leaves []
      return entries.put name (.table route.leaves children)
    | some (.table origin children) =>
      if route.passes origin then do
        let children ← route.modify change path origin children
        return entries.put name (.table origin children)
      else none
    | some (.series tables) => do
      let children ← route.modify change path .header (tables.getLast?.getD [])
      return entries.put name (.series (tables.dropLast ++ [children]))
    | some _ => none

end Route

/-- A key with the path in front of it. -/
structure Key where
  path : List String
  name : String
deriving DecidableEq, Repr

namespace Key

/-- The key with the given parts, of which there must be one. -/
def ofParts? (parts : List String) : Option Key :=
  parts.getLast?.map fun name => ⟨parts.dropLast, name⟩

end Key

namespace Entries

/-- Defines a key, dotted or not. The table a path ends in must be one that dotted
keys have made. -/
def assign (key : Key) (value : Value) (entries : Entries) : Option Entries :=
  Route.key.modify
    (fun origin children =>
      if key.path.isEmpty ∨ origin = .dotted then children.define key.name value else none)
    key.path .header entries

/-- Opens the table of a header. -/
def openTable (key : Key) (entries : Entries) : Option Entries :=
  Route.header.modify
    (fun _ children =>
      match children.lookup key.name with
      | none => some (children.put key.name (.table .header []))
      | some (.table .path inner) => some (children.put key.name (.table .header inner))
      | some _ => none)
    key.path .header entries

/-- Opens the next table of a series. -/
def openElement (key : Key) (entries : Entries) : Option Entries :=
  Route.header.modify
    (fun _ children =>
      match children.lookup key.name with
      | none => some (children.put key.name (.series [[]]))
      | some (.series tables) => some (children.put key.name (.series (tables ++ [[]])))
      | some _ => none)
    key.path .header entries

end Entries

/-- One line of a document that says something. -/
inductive Statement where
  /-- A header in brackets. -/
  | table (key : Key)
  /-- A header in double brackets. -/
  | element (key : Key)
  | assign (key : Key) (value : Value)

/-- A document read so far, and the path of the table its keys go to. -/
structure Draft where
  entries : Entries
  current : List String

namespace Draft

def empty : Draft := ⟨[], []⟩

def extend (d : Draft) : Statement → Option Draft
  | .table key => do return ⟨← d.entries.openTable key, key.path ++ [key.name]⟩
  | .element key => do return ⟨← d.entries.openElement key, key.path ++ [key.name]⟩
  | .assign key value => do
    let entries ← Route.header.modify (fun _ children => children.assign key value)
      d.current .header d.entries
    return ⟨entries, d.current⟩

end Draft

/-- The document that the statements make, unless they contradict each other. -/
def Entries.ofStatements? (statements : List Statement) : Option Entries :=
  (statements.foldlM Draft.extend .empty).map Draft.entries

end SceneEngine.Toml
