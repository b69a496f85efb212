/-
Numbers and dates: how they are read, and how numbers are written.

Underscores may stand between two digits. A decimal integer does not begin with a
zero that another digit follows. What has a fraction or an exponent is a float.
-/
import SceneEngine.Binary.Shortest
import SceneEngine.Toml.Quoted
import SceneEngine.Toml.Value

namespace SceneEngine.Toml

/-- The value of a digit in a base up to sixteen. -/
def digit? (base : Nat) (c : Char) : Option Nat :=
  (hexDigit? c).bind fun d => if d < base then some d else none

def isDigit (base : Nat) (c : Char) : Bool := (digit? base c).isSome

/-- The number some digits stand for. -/
def ofDigits (base : Nat) (digits : List Char) : Nat :=
  digits.foldl (fun n c => base * n + (digit? base c).getD 0) 0

/-- Reads digits, at least one, with single underscores between them. -/
def readDigits (base : Nat) : List Char → Option (List Char × List Char)
  | [] => none
  | c :: '_' :: rest =>
    if isDigit base c then (readDigits base rest).map fun (ds, rest) => (c :: ds, rest) else none
  | c :: rest =>
    if !isDigit base c then none
    else
      match readDigits base rest with
      | some (ds, rest) => some (c :: ds, rest)
      | none => if rest.head?.any (isDigit base) then none else some ([c], rest)

/-- Reads the digits of a decimal integer. -/
def readWhole : List Char → Option (List Char × List Char)
  | '0' :: rest => some (['0'], rest)
  | cs => readDigits 10 cs

/-- The greatest and, up to its sign, least integer. -/
def maxInteger : Nat := (1 <<< 63) - 1

/-- An integer, if it is not out of range. -/
def integer? (negative : Bool) (n : Nat) : Option Value :=
  if negative then
    if n ≤ maxInteger + 1 then some (.integer (-n)) else none
  else if n ≤ maxInteger then some (.integer n) else none

/-- Reads a sign, if there is one. -/
def readSign : List Char → Bool × List Char
  | '-' :: rest => (true, rest)
  | '+' :: rest => (false, rest)
  | cs => (false, cs)

/-- Reads the fraction of a float, if there is one. -/
def readFraction : List Char → Option (List Char × List Char)
  | '.' :: rest => readDigits 10 rest
  | cs => some ([], cs)

/-- Reads the exponent of a float, if there is one. -/
def readExponent : List Char → Option (Int × List Char)
  | [] => some (0, [])
  | c :: rest =>
    if c = 'e' ∨ c = 'E' then do
      let (negative, rest) := readSign rest
      let (digits, rest) ← readDigits 10 rest
      let size : Int := ofDigits 10 digits
      return (if negative then -size else size, rest)
    else some (0, c :: rest)

/-- The float with the given digits, unless it is too large. Only the positive side is
held to that: too far below zero is negative infinity. -/
def float? (negative : Bool) (whole fraction : List Char) (exponent : Int) : Option Value :=
  let x : F64 :=
    .ofDecimal negative (ofDigits 10 (whole ++ fraction)) (exponent - fraction.length)
  if x.isInfinite ∧ !negative then none else some (.float x)

/-- Reads a decimal number after its sign. -/
def readDecimal (negative : Bool) (cs : List Char) : Option (Value × List Char) := do
  let (whole, rest) ← readWhole cs
  match rest.head?.any fun c => c == '.' || c == 'e' || c == 'E' with
  | false => return (← integer? negative (ofDigits 10 whole), rest)
  | true =>
    let (fraction, rest) ← readFraction rest
    let (exponent, rest) ← readExponent rest
    return (← float? negative whole fraction exponent, rest)

/-- Reads an integer in another base. -/
def readBased (base : Nat) (cs : List Char) : Option (Value × List Char) := do
  let (digits, rest) ← readDigits base cs
  return (← integer? false (ofDigits base digits), rest)

/-- Reads a number that may have a sign. -/
def readNumber (cs : List Char) : Option (Value × List Char) :=
  match cs with
  | '0' :: 'x' :: rest => readBased 16 rest
  | '0' :: 'o' :: rest => readBased 8 rest
  | '0' :: 'b' :: rest => readBased 2 rest
  | _ =>
    let (negative, rest) := readSign cs
    match rest with
    | 'i' :: 'n' :: 'f' :: rest => some (.float (.signedInfinity negative), rest)
    | 'n' :: 'a' :: 'n' :: rest => some (.float (.signedNaN negative), rest)
    | rest => readDecimal negative rest

/-! ## Dates and times -/

/-- Reads exactly `count` digits. -/
def readPlaces (count : Nat) (cs : List Char) : Option (Nat × List Char) :=
  let digits := cs.take count
  if digits.length = count ∧ digits.all (isDigit 10) then some (ofDigits 10 digits, cs.drop count)
  else none

/-- Drops a character that must be there. -/
def expect (c : Char) : List Char → Option (List Char)
  | [] => none
  | x :: rest => if x = c then some rest else none

def daysInMonth (year month : Nat) : Nat :=
  if month = 2 then
    if year % 4 = 0 ∧ (year % 100 ≠ 0 ∨ year % 400 = 0) then 29 else 28
  else if month = 4 ∨ month = 6 ∨ month = 9 ∨ month = 11 then 30
  else 31

/-- Passes over a date. -/
def skipDate (cs : List Char) : Option (List Char) := do
  let (year, cs) ← readPlaces 4 cs
  let (month, cs) ← readPlaces 2 (← expect '-' cs)
  let (day, cs) ← readPlaces 2 (← expect '-' cs)
  if 1 ≤ month ∧ month ≤ 12 ∧ 1 ≤ day ∧ day ≤ daysInMonth year month then some cs else none

/-- Passes over a fraction of a second, if there is one. -/
def skipSecondFraction (cs : List Char) : List Char :=
  match cs with
  | '.' :: c :: rest => if isDigit 10 c then rest.dropWhile (isDigit 10) else cs
  | _ => cs

/-- Passes over a time of day. A minute may have a leap second. -/
def skipTime (cs : List Char) : Option (List Char) := do
  let (hour, cs) ← readPlaces 2 cs
  let (minute, cs) ← readPlaces 2 (← expect ':' cs)
  let (second, cs) ← readPlaces 2 (← expect ':' cs)
  if hour < 24 ∧ minute < 60 ∧ second ≤ 60 then some (skipSecondFraction cs) else none

/-- Passes over a distance from universal time, if there is one. -/
def skipOffset (cs : List Char) : Option (List Char) :=
  match cs with
  | [] => some []
  | c :: rest =>
    if c = 'Z' ∨ c = 'z' then some rest
    else if c = '+' ∨ c = '-' then do
      let (hour, rest) ← readPlaces 2 rest
      let (minute, rest) ← readPlaces 2 (← expect ':' rest)
      if hour < 24 ∧ minute < 60 then some rest else none
    else some cs

/-- Passes over the time after a date, if there is one. -/
def skipTimeOfDate (cs : List Char) : Option (List Char) :=
  match cs with
  | [] => some []
  | c :: rest =>
    if c = 'T' ∨ c = 't' ∨ c = ' ' then
      match skipTime rest with
      | some rest => skipOffset rest
      | none => some cs
    else some cs

/-- Reads a date, a time or both. -/
def readMoment (cs : List Char) : Option (Value × List Char) :=
  match skipDate cs with
  | some rest => (skipTimeOfDate rest).map fun rest => (.moment, rest)
  | none => (skipTime cs).map fun rest => (.moment, rest)

/-! ## Writing -/

/-- A float as a document shows it: shortest digits, without an exponent, and with at
least one place. -/
def renderFloat (x : F64) : String :=
  let text := if x.isNaN then (if x.negative then "-nan" else "nan") else x.toText
  if x.isFinite ∧ !text.toList.contains '.' then text ++ ".0" else text

end SceneEngine.Toml
