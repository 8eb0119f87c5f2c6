import Sequencer.Json
import Sequencer.Number.Text
import Sequencer.Text.Quoted

/-!
# Values — typed values and their documents

A variable holds values of one `Shape`. `Value.encode` writes a value as a document and
`Shape.decode` reads one back, naming the first thing that does not fit. The two directions are
defined apart from each other: what is not finite is written as `null`, and `null` is no number.
-/

namespace Sequencer

/-! ## 1. Shapes -/

/-- The type of a value. -/
inductive Shape where
  /-- Whole numbers between two bounds, under a name. Those that no word of 64 bits holds are never
  written. -/
  | int (name : String) (least greatest : Int)
  /-- Doubles. -/
  | float
  | bool
  | text
  | list (item : Shape)
  /-- A value that may be missing. -/
  | option (content : Shape)
  /-- Values under names. -/
  | map (item : Shape)
  /-- A structure with named fields. -/
  | record (name : String) (fields : List (String × Shape))
  /-- Any document. -/
  | json
  /-- A signed whole number of 64 bits that is never written. -/
  | sealed

namespace Shape

/-- Signed whole numbers of 64 bits. -/
def i64 : Shape := int "i64" (-(wordSize 63 : Int)) (maxWord 63)

/-- Unsigned whole numbers of 8 bits. -/
def u8 : Shape := int "u8" 0 255

/-- Two coordinates on the sky. -/
def position : Shape := record "Position" [("ra", float), ("dec", float)]

end Shape

/-! ## 2. Values -/

/-- A typed value. -/
inductive Value where
  | int (value : Int)
  | float (value : Binary64)
  | bool (value : Bool)
  | text (value : String)
  | list (items : List Value)
  | option (content : Option Value)
  | map (fields : List (String × Value))
  | record (name : String) (fields : List (String × Value))
  | json (value : Json)
  | sealed (value : Int)
  /-- Numbers under pairs of numbers. -/
  | pairs (entries : List ((Int × Int) × Int))
  deriving Repr, Inhabited

/-! ## 3. The text of a document and of a value -/

mutual

/-- A document as a reader sees its structure. -/
def Json.shown : Json → String
  | .null => "Null"
  | .bool b => Text.wrapped "Bool" (toString b)
  | .int n => Text.wrapped "Number" (toString n)
  | .float x => Text.wrapped "Number" (Number.documented.text x)
  | .string s => Text.wrapped "String" (Text.quote s)
  | .array items => "Array " ++ Text.bracketed (Json.shownItems items)
  | .object fields => "Object \x7b" ++ Text.separated ", " (Json.shownFields fields) ++ "\x7d"

/-- The items of a list. -/
def Json.shownItems : List Json → List String
  | [] => []
  | item :: rest => Json.shown item :: Json.shownItems rest

/-- The fields of an object. -/
def Json.shownFields : List (String × Json) → List String
  | [] => []
  | (name, value) :: rest => (Text.quote name ++ ": " ++ Json.shown value) :: Json.shownFields rest

end

namespace Value

mutual

/-- A value as a reader sees it. -/
def shown : Value → String
  | int n => toString n
  | float x => Number.shown.text x
  | bool b => toString b
  | text s => Text.quote s
  | list items => Text.bracketed (shownItems items)
  | option none => Text.optional none
  | option (some content) => Text.optional (some content.shown)
  | map fields => "\x7b" ++ Text.separated ", " (shownEntries fields) ++ "\x7d"
  | record name fields => Text.record name (shownFields fields)
  | json value => value.shown
  | sealed n => Text.wrapped "Sealed" (toString n)
  | pairs entries =>
    let entry := fun (entry : (Int × Int) × Int) =>
      "(" ++ toString entry.1.1 ++ ", " ++ toString entry.1.2 ++ "): " ++ toString entry.2
    "\x7b" ++ Text.separated ", " (entries.map entry) ++ "\x7d"

/-- The items of a list. -/
def shownItems : List Value → List String
  | [] => []
  | item :: rest => item.shown :: shownItems rest

/-- The entries of a map. -/
def shownEntries : List (String × Value) → List String
  | [] => []
  | (name, value) :: rest => (Text.quote name ++ ": " ++ value.shown) :: shownEntries rest

/-- The fields of a record. -/
def shownFields : List (String × Value) → List (String × String)
  | [] => []
  | (name, value) :: rest => (name, value.shown) :: shownFields rest

end

/-! ## 4. Writing -/

/-- A whole number as a document, which has room for words of 64 bits with or without a sign. -/
def encodeInt (n : Int) : Except String Json :=
  if -(wordSize 63 : Int) ≤ n ∧ n ≤ maxWord 64 then .ok (.int n) else .error "number out of range"

mutual

/-- A value as a document, or why it has none. -/
def encode : Value → Except String Json
  | int n => encodeInt n
  | float x => .ok (Json.ofBinary64 x)
  | bool b => .ok (.bool b)
  | text s => .ok (.string s)
  | list items => do return .array (← encodeItems items)
  | option none => .ok .null
  | option (some content) => content.encode
  | map fields => do return Json.ofFields (← encodeFields fields)
  | record _ fields => do return Json.ofFields (← encodeFields fields)
  | json value => .ok value
  | sealed _ => .error "sealed value"
  | pairs [] => .ok (.object [])
  | pairs (_ :: _) => .error "key must be a string"

/-- The items of a list. -/
def encodeItems : List Value → Except String (List Json)
  | [] => .ok []
  | item :: rest => do return (← item.encode) :: (← encodeItems rest)

/-- The fields of a map or a record. -/
def encodeFields : List (String × Value) → Except String (List (String × Json))
  | [] => .ok []
  | (name, value) :: rest => do return (name, ← value.encode) :: (← encodeFields rest)

end

/-- The value as a document for a reader; one that has none is given by its text. -/
def display (value : Value) : Json :=
  match value.encode with
  | .ok document => document
  | .error _ => .string value.shown

end Value

/-! ## 5. Reading -/

/-- What a document is, for a reader that expected something else. -/
def Json.found : Json → String
  | .null => "null"
  | .bool b => "boolean `" ++ toString b ++ "`"
  | .int n => "integer `" ++ toString n ++ "`"
  | .float x => "floating point `" ++ Number.documented.text x ++ "`"
  | .string s => "string " ++ Text.quote s
  | .array _ => "sequence"
  | .object _ => "map"

/-- A document of the wrong type. -/
def invalidType (found expected : String) : String :=
  "invalid type: " ++ found ++ ", expected " ++ expected

/-- A document of the right type with a value out of bounds. -/
def invalidValue (found expected : String) : String :=
  "invalid value: " ++ found ++ ", expected " ++ expected

/-- A required field is not there. -/
def missingField (name : String) : String := "missing field `" ++ name ++ "`"

/-- A list of the wrong length. -/
def invalidLength (length : Nat) (expected : String) : String :=
  "invalid length " ++ toString length ++ ", expected " ++ expected

/-- A structure written as a list, as a reader expects it. -/
def listForm (name : String) (size : Nat) : String :=
  "struct " ++ name ++ " with " ++ toString size ++ (if size = 1 then " element" else " elements")

namespace Shape

/-- A whole number between two bounds. -/
def decodeInt (name : String) (least greatest : Int) : Json → Except String Int
  | .int n =>
    if least ≤ n ∧ n ≤ greatest then .ok n else .error (invalidValue (Json.found (.int n)) name)
  | other => .error (invalidType other.found name)

/-- How a document is read. -/
abbrev Reader := Json → Except String Value

/-- The fields of a structure with their readers, and whether a field may be missing. -/
abbrev FieldReaders := List (String × Bool × Reader)

/-- Every item of a list. -/
def readItems (item : Reader) : List Json → Except String (List Value)
  | [] => .ok []
  | document :: rest => do return (← item document) :: (← readItems item rest)

/-- Every entry of a map. -/
def readEntries (item : Reader) :
    List (String × Json) → Except String (List (String × Value))
  | [] => .ok []
  | (name, document) :: rest => do return (name, ← item document) :: (← readEntries item rest)

/-- The fields of a structure that is written as a list. -/
def readPlaces (form : String) :
    FieldReaders → (place : Nat) → List Json → Except String (List (String × Value))
  | [], _, _ => .ok []
  | _ :: _, place, [] => .error (invalidLength place form)
  | (name, _, item) :: fields, place, document :: rest => do
    return (name, ← item document) :: (← readPlaces form fields (place + 1) rest)

/-- The known fields of an object in the order of the object; the others are ignored. -/
def readFields (fields : FieldReaders) :
    List (String × Json) → Except String (List (String × Value))
  | [] => .ok []
  | (name, document) :: rest =>
    match fields.find? fun field => field.1 = name with
    | none => readFields fields rest
    | some field => do return (name, ← field.2.2 document) :: (← readFields fields rest)

/-- The fields in the order of the structure. One that is not there is an error unless it may be
missing. -/
def complete (values : List (String × Value)) :
    FieldReaders → Except String (List (String × Value))
  | [] => .ok []
  | (name, mayMiss, _) :: rest =>
    match values.find? fun value => value.1 = name with
    | some value => do return (name, value.2) :: (← complete values rest)
    | none =>
      if mayMiss then do return (name, .option none) :: (← complete values rest)
      else .error (missingField name)

/-- A structure from a list of its fields or from an object. -/
def readRecord (name : String) (fields : FieldReaders) : Reader
  | .array items => do
    let values ← readPlaces (listForm name fields.length) fields 0 items
    if fields.length < items.length then
      .error (invalidLength items.length "fewer elements in array")
    else return .record name values
  | .object given => do return .record name (← complete (← readFields fields given) fields)
  | other => .error (invalidType other.found ("struct " ++ name))

/-- Whether a field of this shape may be missing. -/
def mayMiss : Shape → Bool
  | option _ => true
  | _ => false

mutual

/-- The value of this shape that a document stands for, or the first thing that does not fit. -/
def decode : Shape → Reader
  | .int name least greatest, document =>
    (decodeInt name least greatest document).map .int
  | .float, document =>
    match document.number? with
    | some x => .ok (.float x)
    | none => .error (invalidType document.found "f64")
  | .bool, document =>
    match document with
    | .bool b => .ok (.bool b)
    | other => .error (invalidType other.found "a boolean")
  | .text, document =>
    match document with
    | .string s => .ok (.text s)
    | other => .error (invalidType other.found "a string")
  | .list item, document =>
    match document with
    | .array items => (readItems (decode item) items).map .list
    | other => .error (invalidType other.found "a sequence")
  | .option content, document =>
    match document with
    | .null => .ok (.option none)
    | other => (decode content other).map fun value => .option (some value)
  | .map item, document =>
    match document with
    | .object fields => (readEntries (decode item) fields).map .map
    | other => .error (invalidType other.found "a map")
  | .record name fields, document => readRecord name (readers fields) document
  | .json, document => .ok (.json document)
  | .sealed, document =>
    (decodeInt "i64" (-(wordSize 63 : Int)) (maxWord 63) document).map .sealed

/-- The readers of the fields of a structure. -/
def readers : List (String × Shape) → FieldReaders
  | [] => []
  | (name, shape) :: rest => (name, mayMiss shape, decode shape) :: readers rest

end

/-! ## 6. Values given by hand -/

/-- The double of that name. -/
def namedFloat? : String → Option Binary64
  | "NaN" => some .nan
  | "inf" => some (.infinite false)
  | "-inf" => some (.infinite true)
  | _ => none

/-- A value of this shape given by hand: a document of it, where a double may also be named. -/
def ofHand? (shape : Shape) (document : Json) : Option Value :=
  match shape, document with
  | .float, .string name => (namedFloat? name).map .float
  | shape, document => (decode shape document).toOption

end Shape

end Sequencer
