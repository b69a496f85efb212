/-
Quoted texts: how they are read, and how one is written.

There are four ways to quote. Double quotes know escapes, single quotes do not; one
quote on either side keeps a text on its line, three let it run over several. A text
is written the plainest way that needs no escape, and with escapes when there is
none.
-/

namespace SceneEngine.Toml

/-- A space or a tab. -/
def isBlank (c : Char) : Bool := c == ' ' || c == '\t'

/-- Whether a quoted text or a comment may hold a character as it is: anything but the
control characters, of which the tab alone is let in. -/
def isPlain (c : Char) : Bool := c == '\t' || (0x20 ≤ c.toNat && c.toNat != 0x7f)

/-- The value of a digit, in either case. -/
def hexDigit? (c : Char) : Option Nat :=
  if '0' ≤ c ∧ c ≤ '9' then some (c.toNat - '0'.toNat)
  else if 'a' ≤ c ∧ c ≤ 'f' then some (c.toNat - 'a'.toNat + 10)
  else if 'A' ≤ c ∧ c ≤ 'F' then some (c.toNat - 'A'.toNat + 10)
  else none

structure Quoting where
  quote : Char
  /-- Whether a backslash begins an escape. -/
  escapes : Bool
  /-- Whether there are three quotes on either side, with lines between them. -/
  block : Bool
deriving DecidableEq, Repr

namespace Quoting

def basic : Quoting := ⟨'"', true, false⟩

def literal : Quoting := ⟨'\'', false, false⟩

def basicBlock : Quoting := ⟨'"', true, true⟩

def literalBlock : Quoting := ⟨'\'', false, true⟩

/-! ## Reading -/

/-- Where in a text the reader is. -/
inductive Mode where
  | plain
  /-- After a backslash. -/
  | escape
  /-- Among the digits of a numbered escape, with so many to come. -/
  | digits (left value : Nat)
  /-- After a backslash and blanks, before the line ends. -/
  | lineEnd
  /-- After a line joined to the next: blanks and line ends are dropped. -/
  | margin
deriving DecidableEq, Repr

/-- Whether a return is half of the line end it stands at. -/
def isReturn (c : Char) (rest : List Char) : Bool := c == '\r' && rest.head? == some '\n'

/-- The mode in which a character is read: a margin ends at the first character that is
not dropped. -/
def Mode.at (mode : Mode) (c : Char) (rest : List Char) : Mode :=
  if mode = .margin ∧ !(isBlank c || c == '\n' || isReturn c rest) then .plain else mode

/-- The character a one-letter escape stands for. -/
def escape? : Char → Option Char
  | 'b' => some '\x08'
  | 't' => some '\t'
  | 'n' => some '\n'
  | 'f' => some '\x0c'
  | 'r' => some '\r'
  | '"' => some '"'
  | '\\' => some '\\'
  | _ => none

/-- The character with a code point, if it is one. -/
def character? (n : Nat) : Option Char := if n.isValidChar then some (Char.ofNat n) else none

/-- What is left after the three quotes that end a block. Up to two quotes more belong
to the text. -/
def closeBlock (quote : Char) (rest : List Char) : List Char × List Char :=
  let extra := (rest.take 2).takeWhile (· == quote)
  (extra, rest.drop extra.length)

/-- Reads a text up to and with its closing quotes. -/
def read (q : Quoting) : Mode → List Char → Option (List Char × List Char)
  | _, [] => none
  | mode, c :: rest =>
    let emit (x : Char) := (q.read .plain rest).map fun (text, rest) => (x :: text, rest)
    match mode.at c rest with
    | .plain =>
      if c = q.quote then
        if !q.block then some ([], rest)
        else if rest.take 2 = [q.quote, q.quote] then some (closeBlock q.quote (rest.drop 2))
        else emit c
      else if q.escapes ∧ c = '\\' then q.read .escape rest
      else if isPlain c then emit c
      else if q.block ∧ c = '\n' then emit '\n'
      else if q.block ∧ isReturn c rest then q.read .plain rest
      else none
    | .escape =>
      if c = 'u' then q.read (.digits 4 0) rest
      else if c = 'U' then q.read (.digits 8 0) rest
      else if q.block ∧ c = '\n' then q.read .margin rest
      else if q.block ∧ (isBlank c ∨ isReturn c rest) then q.read .lineEnd rest
      else (escape? c).bind emit
    | .digits left value =>
      match hexDigit? c with
      | none => none
      | some d =>
        let value := 16 * value + d
        if left ≤ 1 then (character? value).bind emit else q.read (.digits (left - 1) value) rest
    | .lineEnd =>
      if c = '\n' then q.read .margin rest
      else if isBlank c ∨ isReturn c rest then q.read .lineEnd rest
      else none
    | .margin => q.read .margin rest

/-- Reads the text after an opening quote; a second and third quote make it a block,
whose first line end is dropped. -/
def readAny (basic : Bool) (rest : List Char) : Option (List Char × List Char) :=
  let line := if basic then Quoting.basic else literal
  let block := if basic then basicBlock else literalBlock
  if rest.take 2 = [line.quote, line.quote] then
    match rest.drop 2 with
    | '\n' :: rest => block.read .plain rest
    | '\r' :: '\n' :: rest => block.read .plain rest
    | rest => block.read .plain rest
  else line.read .plain rest

/-! ## Writing -/

/-- A control character that must be escaped even where lines may end. -/
def isControl (c : Char) : Bool := !isPlain c && c != '\n'

/-- The length of the longest run of `c`, `run` of it being just before. -/
def longestRun (c : Char) : (run : Nat) → List Char → Nat
  | run, [] => run
  | run, x :: rest => if x = c then longestRun c (run + 1) rest else max run (longestRun c 0 rest)

/-- How a text is quoted. -/
def choose (text : List Char) : Quoting :=
  let control := text.any isControl
  let backslash := text.contains '\\'
  let newline := text.contains '\n'
  let doubles := longestRun '"' 0 text
  let singles := longestRun '\'' 0 text
  if !control && !backslash && !newline && doubles == 0 then basic
  else if !control && !newline && singles == 0 then literal
  else if !control && !backslash && doubles ≤ 2 then basicBlock
  else if !control && singles ≤ 2 then literalBlock
  else if newline then basicBlock
  else basic

/-- A numbered escape of four digits. -/
def numbered (c : Char) : List Char :=
  let digits := (Nat.toDigits 16 c.toNat).map Char.toUpper
  ['\\', 'u'] ++ List.replicate (4 - digits.length) '0' ++ digits

/-- A text with its escapes, `run` quotes standing unescaped just before. A block takes
two quotes in a row as they are. -/
def escaped (block : Bool) : (run : Nat) → List Char → List Char
  | _, [] => []
  | run, c :: rest =>
    if c = '"' then
      if block ∧ run < 2 then '"' :: escaped block (run + 1) rest
      else '\\' :: '"' :: escaped block 0 rest
    else
      let shown := match c with
        | '\x08' => ['\\', 'b']
        | '\t' => ['\\', 't']
        | '\x0c' => ['\\', 'f']
        | '\r' => ['\\', 'r']
        | '\\' => ['\\', '\\']
        | '\n' => if block then ['\n'] else ['\\', 'n']
        | c => if isPlain c then [c] else numbered c
      shown ++ escaped block 0 rest

/-- The text between its quotes. A block with more than one line begins on a line of its
own. -/
def write (q : Quoting) (text : List Char) : List Char :=
  let fence := List.replicate (if q.block then 3 else 1) q.quote
  let start := if q.block && text.contains '\n' then ['\n'] else []
  let body := if q.escapes then escaped q.block 0 text else text
  fence ++ start ++ body ++ fence

/-- A text as a document shows it. -/
def render (s : String) : String := String.ofList ((choose s.toList).write s.toList)

end Quoting

end SceneEngine.Toml
