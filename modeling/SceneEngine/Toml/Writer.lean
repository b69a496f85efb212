/-
Writing documents, and what is asked of a library for them.

Settings reach a document and come back from it through a `Codec`, which is all that is known
of how documents look. The standard one writes table by table, each under its header, one entry
a line. What it shows on a line are values without parts and arrays of such; it writes nothing
with other values in it.
-/
import SceneEngine.Toml.Reader

namespace SceneEngine.Toml

/-- The tables of a document in order, each under its name. -/
abbrev Tables := List (String × Entries)

/-- A library that writes documents and reads them, either of which may fail. -/
structure Codec where
  write : Tables → Option String
  read : String → Option Entries

namespace Value

/-- Whether a value has no parts and, if it is an integer, is not out of range. -/
def isScalar : Value → Bool
  | integer n => -(maxInteger + 1) ≤ n && n ≤ maxInteger
  | float _ | boolean _ | text _ => true
  | _ => false

/-- Whether a line can show a value. -/
def isFlat : Value → Bool
  | array items => items.all isScalar
  | v => v.isScalar

def scalarText : Value → String
  | integer n => toString n
  | float x => renderFloat x
  | boolean b => if b then "true" else "false"
  | text s => Quoting.render s
  | _ => ""

/-- A value as a line shows it. -/
def lineText : Value → String
  | array items => "[" ++ String.intercalate ", " (items.map scalarText) ++ "]"
  | v => v.scalarText

end Value

namespace Tables

/-- Whether all values can be shown. -/
def areFlat (tables : Tables) : Bool := tables.all fun table => table.2.all fun entry => entry.2.isFlat

def entryText (entry : String × Value) : String := entry.1 ++ " = " ++ entry.2.lineText ++ "\n"

def tableText (table : String × Entries) : String :=
  "[" ++ table.1 ++ "]" ++ "\n" ++ String.join (table.2.map entryText)

/-- The tables one after the other, an empty line between them. -/
def text (tables : Tables) : String := String.intercalate "\n" (tables.map tableText)

end Tables

def Codec.standard : Codec where
  write tables := if tables.areFlat then some tables.text else none
  read := parse?

end SceneEngine.Toml
