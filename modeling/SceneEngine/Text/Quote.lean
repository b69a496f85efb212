/-
Text in quotes, such that all of it can be seen.

A character that does not print is written by its number, and so is one that would
attach to the character before it.
-/
import SceneEngine.Text.Extender
import SceneEngine.Text.Printable

namespace SceneEngine.Text

/-- A character by its number in base 16. -/
def numbered (c : Char) : String :=
  "\\u\x7b" ++ String.ofList (Nat.toDigits 16 c.toNat) ++ "\x7d"

/-- A character inside quotes. -/
def escape (c : Char) : String :=
  match c with
  | '"' => "\\\""
  | '\\' => "\\\\"
  | '\n' => "\\n"
  | '\r' => "\\r"
  | '\t' => "\\t"
  | '\x00' => "\\0"
  | c => if isPrintable c && !isExtender c then c.toString else numbered c

/-- The text in quotes. -/
def quote (s : String) : String := "\"" ++ String.join (s.toList.map escape) ++ "\""

end SceneEngine.Text
