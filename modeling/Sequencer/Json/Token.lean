import Sequencer.Json

/-!
# Json tokens — the words of a text

`tokens` cuts a text into brackets, marks, constants, numbers and strings. It stops at the first
thing that is no token and keeps there what is wrong with it: the text ended too early, or it is
malformed. A reader that only skips a value is more lenient than one that wants it, so a string
with half a surrogate pair and a number out of range are still tokens, without a value.
-/

namespace Sequencer.Json

/-- What is wrong with a text. -/
inductive Fault where
  /-- It ended too early. -/
  | early
  /-- It is no document whatever follows. -/
  | malformed
  deriving DecidableEq, Repr

/-- A token. -/
inductive Token where
  | openList
  | closeList
  | openObject
  | closeObject
  | comma
  | colon
  /-- `null`, `true` or `false`. -/
  | constant (value : Json)
  /-- A number, unless it is out of range. -/
  | number (value : Option Json)
  /-- A string, unless it has half a surrogate pair. -/
  | text (content : Option String)
  /-- A string that does not end well; for a reader that wants it and for one that skips it. -/
  | badText (strict lenient : Fault)
  /-- No token; for a reader that wants a value and for one that skips it. -/
  | bad (strict lenient : Fault)
  deriving Repr

/-! ## 1. Numbers -/

/-- The value of a decimal digit. -/
def digit (c : Char) : Nat := c.toNat - '0'.toNat

/-- Digits before the point: as many as fit 64 bits, and the count of those that did not. -/
def wholeDigits (significand : Nat) : List Char → Nat × Nat
  | [] => (significand, 0)
  | c :: rest =>
    let next := significand * 10 + digit c
    if maxWord 64 < next then (significand, rest.length + 1) else wholeDigits next rest

/-- Digits after the point: as many as fit 64 bits, and their count. -/
def fractionDigits (significand count : Nat) : List Char → Nat × Nat
  | [] => (significand, count)
  | c :: rest =>
    let next := significand * 10 + digit c
    if maxWord 64 < next then (significand, count) else fractionDigits next (count + 1) rest

/-- The double `x / 10 ^ k`, at most 308 powers of ten at a time. -/
def shrink (x : Binary64) (k : Nat) : Binary64 :=
  if h : k ≤ 308 then x.div (Binary64.ofNat (Nat.pow 10 k))
  else if x.same Binary64.zero then x
  else shrink (x.div (Binary64.ofNat (Nat.pow 10 308))) (k - 308)
termination_by k
decreasing_by omega

/-- `significand * 10 ^ exponent` as a double, unless it is out of range. -/
def scale (significand : Nat) (exponent : Int) : Option Binary64 :=
  let x := Binary64.ofNat significand
  if exponent < 0 then some (shrink x (-exponent).toNat)
  else if 308 < exponent then (if significand = 0 then some x else none)
  else
    let y := x.mul (Binary64.ofNat (Nat.pow 10 exponent.toNat))
    if y.isFinite then some y else none

/-- The greatest exponent of 32 bits. -/
def maxExponent : Nat := maxWord 31

/-- A number with a point or an exponent: `power` is the exponent that is written. -/
def floatOf (negative : Bool) (significand : Nat) (shift : Int) (power : Option (Bool × Nat)) :
    Option Json :=
  let magnitude :=
    match power with
    | none => scale significand shift
    | some (down, size) =>
      if maxExponent < size then
        (if significand = 0 || down then some Binary64.zero else none)
      else if down then scale significand (max (shift - size) (-(maxExponent : Int) - 1))
      else scale significand (min (shift + size) maxExponent)
  magnitude.map fun x => float (if negative then x.neg else x)

/-- A number without point and exponent: whole if it fits 64 bits, else a double. Minus zero is a
double. -/
def wholeOf (negative : Bool) (significand : Nat) : Json :=
  if negative then
    if significand = 0 || wordSize 63 < significand then float (Binary64.ofNat significand).neg
    else int (-(significand : Int))
  else int significand

/-- The exponent after its mark: whether it is negative, its digits, and the rest. -/
def exponentPart (s : List Char) : (Bool × List Char) × List Char :=
  let (down, s) := match s with
    | '+' :: rest => (false, rest)
    | '-' :: rest => (true, rest)
    | rest => (false, rest)
  ((down, s.takeWhile Char.isDigit), s.dropWhile Char.isDigit)

/-- What is wrong when digits are missing before `rest`. -/
def missingDigits (rest : List Char) : Token :=
  .bad (if rest.isEmpty then .early else .malformed) .malformed

/-- A number after its digits before the point and, if there is one, its fraction. -/
def exponentToken (negative : Bool) (significand : Nat) (shift : Int) (whole : Option Json) :
    List Char → Token × List Char
  | c :: rest =>
    if c = 'e' || c = 'E' then
      let ((down, digits), rest) := exponentPart rest
      if digits.isEmpty then (missingDigits rest, rest)
      else
        let size := digits.foldl (fun n c => n * 10 + digit c) 0
        (.number (floatOf negative significand shift (some (down, size))), rest)
    else (.number (whole.or (floatOf negative significand shift none)), c :: rest)
  | [] => (.number (whole.or (floatOf negative significand shift none)), [])

/-- A number after its sign. -/
def numberToken (negative : Bool) (s : List Char) : Token × List Char :=
  let digits := s.takeWhile Char.isDigit
  let rest := s.dropWhile Char.isDigit
  match digits with
  | [] => (missingDigits rest, rest)
  | '0' :: _ :: _ => (.bad .malformed .malformed, rest)
  | _ =>
    let (significand, dropped) := wholeDigits 0 digits
    match rest with
    | '.' :: rest =>
      let digits := rest.takeWhile Char.isDigit
      let rest := rest.dropWhile Char.isDigit
      if digits.isEmpty then (missingDigits rest, rest)
      else
        let (significand, count) := fractionDigits significand 0 digits
        exponentToken negative significand (dropped - count) none rest
    | rest =>
      let whole := if dropped = 0 then some (wholeOf negative significand) else none
      exponentToken negative significand dropped whole rest

/-! ## 2. Strings -/

/-- The value of a hexadecimal digit. -/
def hexDigit? (c : Char) : Option Nat :=
  if '0' ≤ c ∧ c ≤ '9' then some (c.toNat - '0'.toNat)
  else if 'a' ≤ c ∧ c ≤ 'f' then some (c.toNat - 'a'.toNat + 10)
  else if 'A' ≤ c ∧ c ≤ 'F' then some (c.toNat - 'A'.toNat + 10)
  else none

/-- The bytes of a text in UTF-8. -/
def byteCount (s : List Char) : Nat := s.foldl (fun n c => n + c.utf8Size) 0

/-- Four hexadecimal digits and the rest. -/
def hexFour (s : List Char) : Except Fault (Nat × List Char) :=
  match s with
  | a :: b :: c :: d :: rest =>
    match hexDigit? a, hexDigit? b, hexDigit? c, hexDigit? d with
    | some a, some b, some c, some d => .ok (((a * 16 + b) * 16 + c) * 16 + d, rest)
    | _, _, _, _ => .error .malformed
  | short => .error (if byteCount short < 4 then .early else .malformed)

/-- The character that a letter after a backslash stands for. -/
def escape? : Char → Option Char
  | '"' => some '"'
  | '\\' => some '\\'
  | '/' => some '/'
  | 'b' => some '\x08'
  | 'f' => some '\x0c'
  | 'n' => some '\n'
  | 'r' => some '\r'
  | 't' => some '\t'
  | _ => none

/-- The last escaped code unit of a string, if it is the first half of a pair, and the content so
far, last character first, unless a half stood alone. -/
structure Draft where
  content : Option (List Char) := some []
  half : Option Nat := none

/-- A character is added. After the first half of a pair it makes the content worthless. -/
def Draft.push (draft : Draft) (c : Char) : Draft :=
  match draft.half with
  | none => { draft with content := draft.content.map (c :: ·) }
  | some _ => { content := none }

/-- A code unit of sixteen bits is added. -/
def Draft.pushUnit (draft : Draft) (unit : Nat) : Draft :=
  match draft.half with
  | some high =>
    if 0xdc00 ≤ unit ∧ unit ≤ 0xdfff then
      let c := Char.ofNat ((high - 0xd800) * 0x400 + (unit - 0xdc00) + 0x10000)
      { content := draft.content.map (c :: ·) }
    else { content := none }
  | none =>
    if 0xd800 ≤ unit ∧ unit ≤ 0xdbff then { draft with half := some unit }
    else if 0xdc00 ≤ unit ∧ unit ≤ 0xdfff then { content := none }
    else { draft with content := draft.content.map (Char.ofNat unit :: ·) }

/-- The content of a string that ends here. -/
def Draft.finish (draft : Draft) : Option String :=
  match draft.half with
  | some _ => none
  | none => draft.content.map fun content => String.ofList content.reverse

/-- A string that does not end well. A content that was worthless before is malformed for a reader
that wants it. -/
def Draft.fault (draft : Draft) (fault : Fault) : Token :=
  .badText (if draft.content.isNone then .malformed else fault) fault

/-- A string after its first quote, at most `fuel` characters or escapes of it. -/
def textToken (draft : Draft) : (fuel : Nat) → List Char → Token × List Char
  | 0, rest => (draft.fault .early, rest)
  | _, [] => (draft.fault .early, [])
  | fuel + 1, c :: rest =>
    if c = '"' then (.text draft.finish, rest)
    else if c = '\\' then
      match rest with
      | [] => (draft.fault .early, [])
      | 'u' :: rest =>
        match hexFour rest with
        | .ok (unit, rest) => textToken (draft.pushUnit unit) fuel rest
        | .error fault => (draft.fault fault, rest)
      | letter :: rest =>
        -- after the first half of a pair only another code unit is in order
        let draft := if draft.half.isSome then { content := none } else draft
        match escape? letter with
        | some c => textToken (draft.push c) fuel rest
        | none => (draft.fault .malformed, rest)
    else
      let draft := if draft.half.isSome then { content := none } else draft
      if c.toNat < 0x20 then (draft.fault .malformed, rest)
      else textToken (draft.push c) fuel rest

/-! ## 3. Tokens -/

/-- The rest of `text` after `word`, or what is wrong. -/
def dropWord : List Char → List Char → Except Fault (List Char)
  | [], rest => .ok rest
  | _ :: _, [] => .error .early
  | w :: word, c :: rest => if w = c then dropWord word rest else .error .malformed

/-- A constant after its first letter. -/
def constantToken (value : Json) (word rest : List Char) : Token × List Char :=
  match dropWord word rest with
  | .ok rest => (.constant value, rest)
  | .error fault => (.bad fault fault, rest)

/-- A blank between tokens. -/
def isBlank (c : Char) : Bool := c = ' ' || c = '\n' || c = '\t' || c = '\r'

/-- The token that starts with `c`. -/
def tokenAt (c : Char) (rest : List Char) : Token × List Char :=
  if c = '[' then (.openList, rest)
  else if c = ']' then (.closeList, rest)
  else if c = '\x7b' then (.openObject, rest)
  else if c = '\x7d' then (.closeObject, rest)
  else if c = ',' then (.comma, rest)
  else if c = ':' then (.colon, rest)
  else if c = '"' then textToken {} (rest.length + 1) rest
  else if c = 'n' then constantToken .null ['u', 'l', 'l'] rest
  else if c = 't' then constantToken (.bool true) ['r', 'u', 'e'] rest
  else if c = 'f' then constantToken (.bool false) ['a', 'l', 's', 'e'] rest
  else if c = '-' then numberToken true rest
  else if c.isDigit then numberToken false (c :: rest)
  else (.bad .malformed .malformed, rest)

/-- Whether a token is the last one, because it is none. -/
def Token.isBad : Token → Bool
  | bad .. => true
  | badText .. => true
  | _ => false

/-- The tokens of a text, at most `fuel` characters of it. -/
def tokensOf : (fuel : Nat) → List Char → List Token
  | 0, _ => []
  | _, [] => []
  | fuel + 1, c :: rest =>
    if isBlank c then tokensOf fuel rest
    else
      let (token, rest) := tokenAt c rest
      if token.isBad then [token] else token :: tokensOf fuel rest

/-- The tokens of a text. -/
def tokens (text : String) : List Token :=
  let chars := text.toList
  tokensOf chars.length chars

end Sequencer.Json
