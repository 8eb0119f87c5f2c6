import Sequencer.Sample
import Sequencer.Json.Reader
import Sequencer.Json.Writer

/-!
# Wire form — samples as text

A sample is written as an object with its key, its payload and its time, the time as an object of
seconds and nanoseconds since the epoch. The reader takes objects with the fields in any order and
plain lists, passes over fields that a sample does not have, and stops at the first fault: either
the text is no document, or the document is no sample.
-/

namespace Sequencer.Sample

open Json (Token Fault Next)

/-! ## 1. Writing -/

/-- Why a time before the epoch cannot be written. -/
def beforeEpoch : String := "SystemTime must be later than UNIX_EPOCH"

/-- The text of a sample, unless its time is before the epoch. -/
def write (sample : Sample) : Except String String :=
  if sample.stamp < 0 then .error beforeEpoch
  else
    let moment : Duration := ⟨sample.stamp.toNat⟩
    .ok <| "\x7b\"key\":" ++ Json.writeText sample.key ++ ",\"value\":" ++ sample.value.write ++
      ",\"at\":\x7b\"secs_since_epoch\":" ++ toString moment.seconds ++
      ",\"nanos_since_epoch\":" ++ toString moment.subsecond ++ "\x7d\x7d"

/-! ## 2. Reading -/

/-- Why a text is no sample. -/
inductive ReadError where
  /-- It is no document. -/
  | fault (fault : Fault)
  /-- It is a document, but no sample. -/
  | data (message : String)
  deriving Repr

/-- A step that only looks at the form of the text. -/
def formal {α : Type} : Except Fault α → Except ReadError α
  | .ok a => .ok a
  | .error fault => .error (.fault fault)

/-- The error for a document that starts here while `expected` was wanted. -/
def unexpected (expected : String) : List Token → ReadError
  | [] => .fault .early
  | .constant value :: _ => .data (invalidType value.found expected)
  | .number (some value) :: _ => .data (invalidType value.found expected)
  | .text (some content) :: _ => .data (invalidType (Json.string content).found expected)
  | .openList :: _ => .data (invalidType (Json.array []).found expected)
  | .openObject :: _ => .data (invalidType (Json.object []).found expected)
  | .badText strict _ :: _ => .fault strict
  | .bad strict _ :: _ => .fault strict
  | _ => .fault .malformed

/-- A string. -/
def readText : List Token → Except ReadError (String × List Token)
  | .text (some content) :: rest => .ok (content, rest)
  | tokens => .error (unexpected "a string" tokens)

/-- A whole number from zero to `greatest`, under the name of its type. -/
def readNat (name : String) (greatest : Nat) : List Token → Except ReadError (Nat × List Token)
  | .number (some (.int n)) :: rest =>
    if 0 ≤ n ∧ n ≤ greatest then .ok (n.toNat, rest)
    else .error (.data (invalidValue (Json.int n).found name))
  | tokens => .error (unexpected name tokens)

/-- Seconds. -/
def readSeconds : List Token → Except ReadError (Nat × List Token) := readNat "u64" (maxWord 64)

/-- Nanoseconds. -/
def readNanos : List Token → Except ReadError (Nat × List Token) := readNat "u32" (maxWord 32)

/-- The end of a list. -/
def endList {α : Type} (a : α) : List Token → Except ReadError (α × List Token)
  | [] => .error (.fault .early)
  | .closeList :: rest => .ok (a, rest)
  | _ => .error (.fault .malformed)

/-- The next item of a list that has at least `place + 1` of them. -/
def readItem {α : Type} (place : Nat) (form : String)
    (item : List Token → Except ReadError (α × List Token)) (tokens : List Token) :
    Except ReadError (α × List Token) := do
  match ← formal (Json.nextItem (place = 0) tokens) with
  | .over _ => throw (.data (invalidLength place form))
  | .piece start => item start

/-- A field is there twice. -/
def duplicateField (name : String) : ReadError := .data ("duplicate field `" ++ name ++ "`")

/-- A field that was read, or the error that it is missing. -/
def present {α : Type} (name : String) : Option α → Except ReadError α
  | some a => .ok a
  | none => .error (.data (missingField name))

/-- Seconds and nanoseconds, unless they are more seconds than fit 64 bits. -/
def offsetOf (seconds nanos : Nat) : Except ReadError Duration :=
  if wordSize 64 ≤ seconds + nanos / Duration.perSecond then
    .error (.data "overflow deserializing SystemTime epoch offset")
  else .ok (Duration.ofParts seconds nanos)

/-- The fields of a time up to the end of its object. -/
def readMoment : (fuel : Nat) → (first : Bool) → (seconds nanos : Option Nat) → List Token →
    Except ReadError (Duration × List Token)
  | 0, _, _, _, _ => .error (.fault .malformed)
  | fuel + 1, first, seconds, nanos, tokens => do
    match ← formal (Json.nextField first tokens) with
    | .over rest =>
      let s ← present "secs_since_epoch" seconds
      let n ← present "nanos_since_epoch" nanos
      return (← offsetOf s n, rest)
    | .piece (name, rest) =>
      if name = "secs_since_epoch" then
        if seconds.isSome then throw (duplicateField name)
        let (s, rest) ← readSeconds (← formal (Json.afterColon rest))
        readMoment fuel false (some s) nanos rest
      else if name = "nanos_since_epoch" then
        if nanos.isSome then throw (duplicateField name)
        let (n, rest) ← readNanos (← formal (Json.afterColon rest))
        readMoment fuel false seconds (some n) rest
      else
        throw (.data ("unknown field `" ++ name ++
          "`, expected `secs_since_epoch` or `nanos_since_epoch`"))

/-- A time, as an object or as a list. -/
def readStamp (tokens : List Token) : Except ReadError (Int × List Token) := do
  let (offset, rest) ← match tokens with
    | .openList :: rest => do
      let (s, rest) ← readItem 0 "struct SystemTime" readSeconds rest
      let (n, rest) ← readItem 1 "struct SystemTime" readNanos rest
      endList (← offsetOf s n) rest
    | .openObject :: rest => readMoment (rest.length + 1) true none none rest
    | other => throw (unexpected "struct SystemTime" other)
  match stampOf offset false with
  | some stamp => return (stamp, rest)
  | none => throw (.data "overflow deserializing SystemTime")

/-- A payload. The sample around it is one level of nesting. -/
def readPayload (tokens : List Token) : Except ReadError (Json × List Token) :=
  formal (Json.readValue (Json.enough tokens) (Json.nestingLimit - 1) tokens)

/-- The fields of a sample up to the end of its object. -/
def readFields : (fuel : Nat) → (first : Bool) → (key : Option String) → (value : Option Json) →
    (stamp : Option Int) → List Token → Except ReadError (Sample × List Token)
  | 0, _, _, _, _, _ => .error (.fault .malformed)
  | fuel + 1, first, key, value, stamp, tokens => do
    match ← formal (Json.nextField first tokens) with
    | .over rest =>
      let k ← present "key" key
      let v ← present "value" value
      let t ← present "at" stamp
      return (⟨k, v, t⟩, rest)
    | .piece (name, rest) =>
      if name = "key" then
        if key.isSome then throw (duplicateField name)
        let (k, rest) ← readText (← formal (Json.afterColon rest))
        readFields fuel false (some k) value stamp rest
      else if name = "value" then
        if value.isSome then throw (duplicateField name)
        let (v, rest) ← readPayload (← formal (Json.afterColon rest))
        readFields fuel false key (some v) stamp rest
      else if name = "at" then
        if stamp.isSome then throw (duplicateField name)
        let (t, rest) ← readStamp (← formal (Json.afterColon rest))
        readFields fuel false key value (some t) rest
      else
        let start ← formal (Json.afterColon rest)
        let rest ← formal (Json.skipValue (Json.enough start) start)
        readFields fuel false key value stamp rest

/-- A sample as a list, or as an object. -/
def readTokens (tokens : List Token) : Except ReadError (Sample × List Token) :=
  match tokens with
  | .openList :: rest => do
    let form := listForm "Sample" 3
    let (k, rest) ← readItem 0 form readText rest
    let (v, rest) ← readItem 1 form readPayload rest
    let (t, rest) ← readItem 2 form readStamp rest
    endList ⟨k, v, t⟩ rest
  | .openObject :: rest => readFields (rest.length + 1) true none none none rest
  | other => .error (unexpected "struct Sample" other)

/-- The sample of a whole text. -/
def read (text : String) : Except ReadError Sample :=
  match readTokens (Json.tokens text) with
  | .error fault => .error fault
  | .ok (sample, []) => .ok sample
  | .ok (_, _ :: _) => .error (.fault .malformed)

end Sequencer.Sample
