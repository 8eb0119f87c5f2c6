import Sequencer.Number.Binary64

/-!
# Json — documents

Payloads travel as documents. Whole numbers and doubles stay apart: `1` and `1.0` are different
documents. The fields of an object are kept in ascending order of their names, each name once.
-/

namespace Sequencer

/-- A document. -/
inductive Json where
  | null
  | bool (value : Bool)
  | int (value : Int)
  | float (value : Binary64)
  | string (value : String)
  | array (items : List Json)
  | object (fields : List (String × Json))
  deriving Repr, Inhabited

namespace Json

/-! ## 1. Objects -/

/-- The field `name` set to `value`, in its place among the names. -/
def insertField (name : String) (value : Json) : List (String × Json) → List (String × Json)
  | [] => [(name, value)]
  | field :: rest =>
    if name = field.1 then (name, value) :: rest
    else if name < field.1 then (name, value) :: field :: rest
    else field :: insertField name value rest

/-- An object of the given fields. Of two fields with one name the last one counts. -/
def ofFields (fields : List (String × Json)) : Json :=
  object (fields.foldl (fun sorted field => insertField field.1 field.2 sorted) [])

/-- The field of an object. -/
def field? (name : String) : Json → Option Json
  | object fields => (fields.find? fun field => field.1 = name).map (·.2)
  | _ => none

/-! ## 2. Equality -/

mutual

/-- Equal as documents; doubles are compared as numbers. -/
def same : Json → Json → Bool
  | null, null => true
  | bool a, bool b => a = b
  | int a, int b => a = b
  | float a, float b => a.same b
  | string a, string b => a = b
  | array a, array b => sameItems a b
  | object a, object b => sameFields a b
  | _, _ => false

/-- Equal item by item. -/
def sameItems : List Json → List Json → Bool
  | [], [] => true
  | a :: as, b :: bs => same a b && sameItems as bs
  | _, _ => false

/-- Equal field by field. -/
def sameFields : List (String × Json) → List (String × Json) → Bool
  | [], [] => true
  | (m, a) :: as, (n, b) :: bs => m = n && same a b && sameFields as bs
  | _, _ => false

end

/-! ## 3. Numbers -/

/-- A number as a double. -/
def number? : Json → Option Binary64
  | int n => some (Binary64.ofInt n)
  | float x => some x
  | _ => none

/-- A number of documents: what is not finite has no place there. -/
def ofBinary64 (x : Binary64) : Json :=
  if x.isFinite then float x else null

end Json

end Sequencer
