import Sequencer.Json.Token

/-!
# Json reader — documents from tokens

The reader answers as soon as it can: the first thing that is wrong decides whether the text ended
too early or is malformed. Lists and objects may nest in each other up to a limit.
-/

namespace Sequencer.Json

/-- Lists and objects nest less deep than this. -/
def nestingLimit : Nat := 128

/-! ## 1. Lists and objects piece by piece -/

/-- The next piece of a list or an object: its end was passed, or a piece starts here. -/
inductive Next (α : Type) where
  | over (rest : List Token)
  | piece (start : α)

/-- The next item of a list. `first` says that no item came before it. -/
def nextItem (first : Bool) : List Token → Except Fault (Next (List Token))
  | [] => .error .early
  | .closeList :: rest => .ok (.over rest)
  | .comma :: rest =>
    if first then .error .malformed
    else match rest with
      | [] => .error .early
      | .closeList :: _ => .error .malformed
      | rest => .ok (.piece rest)
  | tokens => if first then .ok (.piece tokens) else .error .malformed

/-- The name of a field that starts here. -/
def fieldName : List Token → Except Fault (Next (String × List Token))
  | [] => .error .early
  | .text (some name) :: rest => .ok (.piece (name, rest))
  | .badText strict _ :: _ => .error strict
  | _ => .error .malformed

/-- The name of the next field of an object. -/
def nextField (first : Bool) : List Token → Except Fault (Next (String × List Token))
  | [] => .error .early
  | .closeObject :: rest => .ok (.over rest)
  | .comma :: rest => if first then .error .malformed else fieldName rest
  | tokens => if first then fieldName tokens else .error .malformed

/-- The colon after a name. -/
def afterColon : List Token → Except Fault (List Token)
  | [] => .error .early
  | .colon :: rest => .ok rest
  | _ => .error .malformed

/-! ## 2. Whole documents -/

mutual

/-- A document, with fewer than `depth` levels of lists and objects. -/
def readValue : (fuel depth : Nat) → List Token → Except Fault (Json × List Token)
  | 0, _, _ => .error .malformed
  | _ + 1, _, [] => .error .early
  | fuel + 1, depth, token :: rest =>
    match token with
    | .constant value => .ok (value, rest)
    | .number (some value) => .ok (value, rest)
    | .text (some content) => .ok (string content, rest)
    | .badText strict _ => .error strict
    | .bad strict _ => .error strict
    | .openList =>
      if depth ≤ 1 then .error .malformed
      else match readItems fuel (depth - 1) true rest with
        | .ok (items, rest) => .ok (array items, rest)
        | .error fault => .error fault
    | .openObject =>
      if depth ≤ 1 then .error .malformed
      else match readFields fuel (depth - 1) true rest with
        | .ok (fields, rest) => .ok (ofFields fields, rest)
        | .error fault => .error fault
    | _ => .error .malformed

/-- The items of a list up to its end. -/
def readItems : (fuel depth : Nat) → (first : Bool) → List Token →
    Except Fault (List Json × List Token)
  | 0, _, _, _ => .error .malformed
  | fuel + 1, depth, first, tokens =>
    match nextItem first tokens with
    | .error fault => .error fault
    | .ok (.over rest) => .ok ([], rest)
    | .ok (.piece start) =>
      match readValue fuel depth start with
      | .error fault => .error fault
      | .ok (item, rest) =>
        match readItems fuel depth false rest with
        | .error fault => .error fault
        | .ok (items, rest) => .ok (item :: items, rest)

/-- The fields of an object up to its end, in the order of the text. -/
def readFields : (fuel depth : Nat) → (first : Bool) → List Token →
    Except Fault (List (String × Json) × List Token)
  | 0, _, _, _ => .error .malformed
  | fuel + 1, depth, first, tokens =>
    match nextField first tokens with
    | .error fault => .error fault
    | .ok (.over rest) => .ok ([], rest)
    | .ok (.piece (name, rest)) =>
      match afterColon rest with
      | .error fault => .error fault
      | .ok start =>
        match readValue fuel depth start with
        | .error fault => .error fault
        | .ok (value, rest) =>
          match readFields fuel depth false rest with
          | .error fault => .error fault
          | .ok (fields, rest) => .ok ((name, value) :: fields, rest)

end

/-- Enough steps to read any document from `tokens`. -/
def enough (tokens : List Token) : Nat := 2 * tokens.length + 2

/-- A document from a whole text, with fewer than `depth` levels of lists and objects. -/
def read (depth : Nat) (text : String) : Except Fault Json :=
  let tokens := tokens text
  match readValue (enough tokens) depth tokens with
  | .error fault => .error fault
  | .ok (value, []) => .ok value
  | .ok (_, _ :: _) => .error .malformed

/-! ## 3. Skipping -/

/-- The next piece of something that is skipped; `close` ends it. -/
def nextSkipped (close : Token → Bool) (first : Bool) :
    List Token → Except Fault (Next (List Token))
  | [] => .error .early
  | token :: rest =>
    if close token then .ok (.over rest)
    else if first then .ok (.piece (token :: rest))
    else match token with
      | .comma => .ok (.piece rest)
      | _ => .error .malformed

/-- Passes over the name of a field and its colon. -/
def skipName : List Token → Except Fault (List Token)
  | [] => .error .early
  | .text _ :: rest => afterColon rest
  | .badText _ lenient :: _ => .error lenient
  | _ => .error .malformed

/-- The end of a list. -/
def Token.endsList : Token → Bool
  | closeList => true
  | _ => false

/-- The end of an object. -/
def Token.endsObject : Token → Bool
  | closeObject => true
  | _ => false

mutual

/-- Passes over a document of any depth. -/
def skipValue : (fuel : Nat) → List Token → Except Fault (List Token)
  | 0, _ => .error .malformed
  | _ + 1, [] => .error .early
  | fuel + 1, token :: rest =>
    match token with
    | .constant _ => .ok rest
    | .number _ => .ok rest
    | .text _ => .ok rest
    | .badText _ lenient => .error lenient
    | .bad _ lenient => .error lenient
    | .openList => skipItems fuel true rest
    | .openObject => skipFields fuel true rest
    | _ => .error .malformed

/-- Passes over the items of a list and its end. -/
def skipItems : (fuel : Nat) → (first : Bool) → List Token → Except Fault (List Token)
  | 0, _, _ => .error .malformed
  | fuel + 1, first, tokens =>
    match nextSkipped Token.endsList first tokens with
    | .error fault => .error fault
    | .ok (.over rest) => .ok rest
    | .ok (.piece start) =>
      match skipValue fuel start with
      | .error fault => .error fault
      | .ok rest => skipItems fuel false rest

/-- Passes over the fields of an object and its end. -/
def skipFields : (fuel : Nat) → (first : Bool) → List Token → Except Fault (List Token)
  | 0, _, _ => .error .malformed
  | fuel + 1, first, tokens =>
    match nextSkipped Token.endsObject first tokens with
    | .error fault => .error fault
    | .ok (.over rest) => .ok rest
    | .ok (.piece start) =>
      match skipName start with
      | .error fault => .error fault
      | .ok start =>
        match skipValue fuel start with
        | .error fault => .error fault
        | .ok rest => skipFields fuel false rest

end

end Sequencer.Json
