import Sequencer.Text.Hidden

/-!
# Quoted text — strings on one line

`quote` writes a string between double quotes so that it stays on one line: the quote and the
backslash are escaped, the usual control characters have short names, and every other hidden
character is shown by its code point in braces.
-/

namespace Sequencer.Text

/-- The code point of `c` in braces, in lower-case hexadecimal. -/
def codePoint (c : Char) : List Char :=
  ['\\', 'u', '\x7b'] ++ Nat.toDigits 16 c.toNat ++ ['\x7d']

/-- What stands for `c` between the quotes. -/
def quoteChar (c : Char) : List Char :=
  if c = '"' then ['\\', '"']
  else if c = '\\' then ['\\', '\\']
  else if c = '\n' then ['\\', 'n']
  else if c = '\r' then ['\\', 'r']
  else if c = '\t' then ['\\', 't']
  else if c = '\x00' then ['\\', '0']
  else if isHidden c then codePoint c
  else [c]

/-- The characters of `s` between double quotes. -/
def quoteChars (s : List Char) : List Char :=
  '"' :: s.flatMap quoteChar ++ ['"']

/-- A string between double quotes, on one line. -/
def quote (s : String) : String :=
  String.ofList (quoteChars s.toList)

/-- Texts side by side with `separator` between two neighbours. -/
def separated (separator : String) : List String → String
  | [] => ""
  | [item] => item
  | item :: rest => item ++ separator ++ separated separator rest

/-- Items between brackets, separated by a comma and a space. -/
def bracketed (items : List String) : String :=
  "[" ++ separated ", " items ++ "]"

/-- A constructor with named fields, as in `Running \x7b attempt: 1 \x7d`. Without fields it is
the bare name. -/
def record (name : String) : List (String × String) → String
  | [] => name
  | fields =>
    name ++ " \x7b "
      ++ separated ", " (fields.map fun field => field.1 ++ ": " ++ field.2) ++ " \x7d"

/-- A constructor with one unnamed field, as in `Some(1)`. -/
def wrapped (name : String) (content : String) : String :=
  name ++ "(" ++ content ++ ")"

/-- An optional text: `Some(…)` or `None`. -/
def optional (content : Option String) : String :=
  match content with
  | none => "None"
  | some text => wrapped "Some" text

end Sequencer.Text
