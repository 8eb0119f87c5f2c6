import Sequencer.Json
import Sequencer.Number.Text

/-!
# Json text — the compact form

Documents are written without blanks. Only the quote, the backslash and the control characters
below the space are escaped; everything else stands for itself.
-/

namespace Sequencer.Json

/-- Two lower-case hexadecimal digits. -/
def hexPair (n : Nat) : List Char :=
  Nat.toDigits 16 (n / 16) ++ Nat.toDigits 16 (n % 16)

/-- What stands for a character between the quotes. -/
def writeChar (c : Char) : List Char :=
  if c = '"' then ['\\', '"']
  else if c = '\\' then ['\\', '\\']
  else if c = '\x08' then ['\\', 'b']
  else if c = '\x0c' then ['\\', 'f']
  else if c = '\n' then ['\\', 'n']
  else if c = '\r' then ['\\', 'r']
  else if c = '\t' then ['\\', 't']
  else if c.toNat < 0x20 then ['\\', 'u', '0', '0'] ++ hexPair c.toNat
  else [c]

/-- A string between quotes. -/
def writeText (s : String) : String :=
  String.ofList ('"' :: s.toList.flatMap writeChar ++ ['"'])

/-- A double; what is not finite is written as `null`. -/
def writeFloat (x : Binary64) : String :=
  if x.isFinite then Number.documented.text x else "null"

mutual

/-- A document without blanks. -/
def write : Json → String
  | null => "null"
  | bool b => if b then "true" else "false"
  | int n => toString n
  | float x => writeFloat x
  | string s => writeText s
  | array [] => "[]"
  | array (item :: rest) => "[" ++ write item ++ writeItems rest
  | object [] => "\x7b\x7d"
  | object ((name, value) :: rest) =>
    "\x7b" ++ writeText name ++ ":" ++ write value ++ writeFields rest

/-- The items after the first one, and the closing bracket. -/
def writeItems : List Json → String
  | [] => "]"
  | item :: rest => "," ++ write item ++ writeItems rest

/-- The fields after the first one, and the closing brace. -/
def writeFields : List (String × Json) → String
  | [] => "\x7d"
  | (name, value) :: rest => "," ++ writeText name ++ ":" ++ write value ++ writeFields rest

end

end Sequencer.Json
