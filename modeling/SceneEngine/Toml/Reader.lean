/-
Reading a document: from text to statements, and from statements to entries.

Arrays and inline tables nest, and a dotted key has parts; both end before
`depthLimit`. Loops over items and lines are bounded by the text that is left.
-/
import SceneEngine.Toml.Number

namespace SceneEngine.Toml

/-- Values do not nest this deep, and keys do not have this many parts. -/
def depthLimit : Nat := 80

/-! ## Blanks, comments and lines -/

def skipBlanks (cs : List Char) : List Char := cs.dropWhile isBlank

/-- Passes over a comment, if there is one. -/
def skipComment : List Char → List Char
  | '#' :: rest => rest.dropWhile isPlain
  | cs => cs

/-- Passes over a line end. The text may end instead. -/
def skipLineEnd : List Char → Option (List Char)
  | [] => some []
  | '\n' :: rest => some rest
  | '\r' :: '\n' :: rest => some rest
  | _ => none

/-- Passes over what may follow on a line: blanks, a comment, the line end. -/
def finishLine (cs : List Char) : Option (List Char) := skipLineEnd (skipComment (skipBlanks cs))

/-- Passes over blanks, comments and line ends. Inside a comment only its end counts. -/
def skipLines : (comment : Bool) → List Char → List Char
  | _, [] => []
  | comment, c :: rest =>
    if c = '\n' then skipLines false rest
    else if Quoting.isReturn c rest then skipLines comment rest
    else if comment then
      if isPlain c then skipLines true rest else c :: rest
    else if isBlank c then skipLines false rest
    else if c = '#' then skipLines true rest
    else c :: rest

/-! ## Keys -/

/-- A character of a key without quotes. -/
def isKeyChar (c : Char) : Bool := c.isAlphanum || c == '-' || c == '_'

/-- Reads one part of a key. -/
def readPart : List Char → Option (String × List Char)
  | '"' :: rest => (Quoting.basic.read .plain rest).map fun (text, rest) => (.ofList text, rest)
  | '\'' :: rest => (Quoting.literal.read .plain rest).map fun (text, rest) => (.ofList text, rest)
  | cs =>
    match cs.takeWhile isKeyChar with
    | [] => none
    | part => some (.ofList part, cs.dropWhile isKeyChar)

/-- Reads the parts of a key, at most `budget`, and the blanks around them. -/
def readParts : (budget : Nat) → List Char → Option (List String × List Char)
  | 0, _ => none
  | budget + 1, cs => do
    let (part, cs) ← readPart (skipBlanks cs)
    match skipBlanks cs with
    | '.' :: rest =>
      let (parts, rest) ← readParts budget rest
      return (part :: parts, rest)
    | rest => return ([part], rest)

def readKey (cs : List Char) : Option (Key × List Char) := do
  let (parts, rest) ← readParts (depthLimit - 1) cs
  return (← Key.ofParts? parts, rest)

/-- Reads a key and its value. -/
def readAssignment (value : List Char → Option (Value × List Char)) (cs : List Char) :
    Option (Key × Value × List Char) := do
  let (key, cs) ← readKey cs
  let (v, cs) ← value (skipBlanks (← expect '=' cs))
  return (key, v, cs)

/-! ## Values -/

/-- Reads the items of an array and the closing bracket. -/
def readItems (value : List Char → Option (Value × List Char)) :
    (fuel : Nat) → List Char → Option (List Value × List Char)
  | 0, _ => none
  | fuel + 1, cs =>
    match skipLines false cs with
    | ']' :: rest => some ([], rest)
    | cs => do
      let (item, cs) ← value cs
      match skipLines false cs with
      | ',' :: rest =>
        let (items, rest) ← readItems value fuel rest
        return (item :: items, rest)
      | ']' :: rest => return ([item], rest)
      | _ => none

/-- Reads the entries of an inline table, at least one, and the closing brace. -/
def readEntries (value : List Char → Option (Value × List Char)) :
    (fuel : Nat) → Entries → List Char → Option (Entries × List Char)
  | 0, _, _ => none
  | fuel + 1, entries, cs => do
    let (key, v, cs) ← readAssignment value cs
    let entries ← entries.assign key v
    match skipBlanks cs with
    | ',' :: rest => readEntries value fuel entries rest
    | '\x7d' :: rest => return (entries, rest)
    | _ => none

/-- Reads a value without parts of its own. -/
def readScalar (cs : List Char) : Option (Value × List Char) :=
  match cs with
  | '"' :: rest => (Quoting.readAny true rest).map fun (s, rest) => (.text (.ofList s), rest)
  | '\'' :: rest => (Quoting.readAny false rest).map fun (s, rest) => (.text (.ofList s), rest)
  | 't' :: 'r' :: 'u' :: 'e' :: rest => some (.boolean true, rest)
  | 'f' :: 'a' :: 'l' :: 's' :: 'e' :: rest => some (.boolean false, rest)
  | _ => (readMoment cs).orElse fun _ => readNumber cs

/-- Reads a value that nests at most `depth` deep. -/
def readValue : (depth : Nat) → List Char → Option (Value × List Char)
  | 0, cs => readScalar cs
  | depth + 1, cs =>
    match cs with
    | '[' :: rest => do
      let (items, rest) ← readItems (readValue depth) rest.length rest
      return (.array items, rest)
    | '\x7b' :: rest =>
      match skipBlanks rest with
      | '\x7d' :: rest => some (.table .inline [], rest)
      | _ => do
        let (entries, rest) ← readEntries (readValue depth) rest.length [] rest
        return (.table .inline entries, rest)
    | _ => readScalar cs

/-! ## Documents -/

/-- Reads a header after its opening brackets. -/
def readHeader (close : List Char) (cs : List Char) : Option (Key × List Char) := do
  let (key, cs) ← readKey cs
  return (key, ← close.foldlM (fun cs c => expect c cs) cs)

def readStatement (cs : List Char) : Option (Statement × List Char) :=
  match cs with
  | '[' :: '[' :: rest => (readHeader [']', ']'] rest).map fun (key, cs) => (.element key, cs)
  | '[' :: rest => (readHeader [']'] rest).map fun (key, cs) => (.table key, cs)
  | _ =>
    (readAssignment (readValue (depthLimit - 1)) cs).map fun (key, v, cs) => (.assign key v, cs)

/-- Reads a document line by line. -/
def readStatements : (fuel : Nat) → List Char → Option (List Statement)
  | _, [] => some []
  | 0, _ => none
  | fuel + 1, cs =>
    match finishLine cs with
    | some rest => readStatements fuel rest
    | none => do
      let (statement, rest) ← readStatement (skipBlanks cs)
      let statements ← readStatements fuel (← finishLine rest)
      return statement :: statements

/-- Drops the mark that may open a text. -/
def skipMark : List Char → List Char
  | '\ufeff' :: rest => rest
  | cs => cs

/-- Reads a whole document. -/
def parse? (text : String) : Option Entries :=
  let cs := skipMark text.toList
  (readStatements cs.length cs).bind Entries.ofStatements?

end SceneEngine.Toml
