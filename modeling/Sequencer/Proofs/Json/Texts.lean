import Sequencer.Json.Reader
import Sequencer.Proofs.Json.Fields
import Sequencer.Proofs.Json.Words

/-!
# Texts — documents written and read back

A document whose numbers are whole and fit is written as a text that reads back as the same
document.  Between the two stand its tokens: the text is cut into them, and the reader makes the
document of them, whatever follows.
-/

namespace Sequencer.Json

/-! ## 1. Documents with whole numbers -/

mutual

/-- Every number is whole and fits, and every object has its fields in order. -/
def Plain : Json → Prop
  | null | bool _ | string _ => True
  | int n => Fits n
  | float _ => False
  | array items => PlainItems items
  | object fields => Ascending fields ∧ PlainFields fields

/-- The items of a list are plain. -/
def PlainItems : List Json → Prop
  | [] => True
  | item :: rest => Plain item ∧ PlainItems rest

/-- The fields of an object are plain. -/
def PlainFields : List (String × Json) → Prop
  | [] => True
  | (_, value) :: rest => Plain value ∧ PlainFields rest

end

mutual

/-- Whether a document is plain is found item by item and field by field. -/
def decidePlain : (document : Json) → Decidable document.Plain
  | null | bool _ | string _ => isTrue trivial
  | int n => inferInstanceAs (Decidable (Fits n))
  | float _ => isFalse id
  | array items => decidePlainItems items
  | object fields =>
    have := decidePlainFields fields
    inferInstanceAs (Decidable (Ascending fields ∧ PlainFields fields))

/-- Whether the items of a list are plain. -/
def decidePlainItems : (items : List Json) → Decidable (PlainItems items)
  | [] => isTrue trivial
  | item :: rest =>
    have := decidePlain item
    have := decidePlainItems rest
    inferInstanceAs (Decidable (Plain item ∧ PlainItems rest))

/-- Whether the fields of an object are plain. -/
def decidePlainFields : (fields : List (String × Json)) → Decidable (PlainFields fields)
  | [] => isTrue trivial
  | (_, value) :: rest =>
    have := decidePlain value
    have := decidePlainFields rest
    inferInstanceAs (Decidable (Plain value ∧ PlainFields rest))

end

instance : DecidablePred Plain := decidePlain

mutual

/-- How deep lists and objects nest. -/
def nesting : Json → Nat
  | array items => nestingItems items + 1
  | object fields => nestingFields fields + 1
  | _ => 0

/-- The depth of the deepest item. -/
def nestingItems : List Json → Nat
  | [] => 0
  | item :: rest => max (nesting item) (nestingItems rest)

/-- The depth of the deepest field. -/
def nestingFields : List (String × Json) → Nat
  | [] => 0
  | (_, value) :: rest => max (nesting value) (nestingFields rest)

end

mutual

/-- The tokens of a document. -/
def spelled : Json → List Token
  | null => [.constant null]
  | bool b => [.constant (bool b)]
  | int n => [.number (some (int n))]
  | float x => [.number (some (float x))]
  | string s => [.text (some s)]
  | array [] => [.openList, .closeList]
  | array (item :: rest) => .openList :: (spelled item ++ spelledItems rest)
  | object [] => [.openObject, .closeObject]
  | object ((name, value) :: rest) =>
    .openObject :: .text (some name) :: .colon :: (spelled value ++ spelledFields rest)

/-- The tokens of the items after the first one, and the end of the list. -/
def spelledItems : List Json → List Token
  | [] => [.closeList]
  | item :: rest => .comma :: (spelled item ++ spelledItems rest)

/-- The tokens of the fields after the first one, and the end of the object. -/
def spelledFields : List (String × Json) → List Token
  | [] => [.closeObject]
  | (name, value) :: rest =>
    .comma :: .text (some name) :: .colon :: (spelled value ++ spelledFields rest)

end

/-! ## 2. From the text to the tokens -/

theorem endsNumber_writeItems (items : List Json) (rest : List Char) :
    EndsNumber ((writeItems items).toList ++ rest) := by
  cases items with
  | nil => exact EndsNumber.closeList rest
  | cons item items =>
    rw [writeItems, String.toList_append, String.toList_append, List.append_assoc,
      List.append_assoc]
    exact EndsNumber.comma _

theorem endsNumber_writeFields (fields : List (String × Json)) (rest : List Char) :
    EndsNumber ((writeFields fields).toList ++ rest) := by
  cases fields with
  | nil => exact EndsNumber.closeObject rest
  | cons field fields =>
    rw [writeFields, String.toList_append, String.toList_append, String.toList_append,
      String.toList_append, List.append_assoc, List.append_assoc, List.append_assoc,
      List.append_assoc]
    exact EndsNumber.comma _

mutual

/-- The text of a plain document in front of another text is cut into the tokens of the document in
front of the tokens of that text. -/
theorem lexes_write : ∀ (document : Json) {rest : List Char} {toks : List Token},
    document.Plain → EndsNumber rest → Lexes rest toks →
    Lexes (document.write.toList ++ rest) (document.spelled ++ toks)
  | null, _, _, _, _, h => Lexes.constant rfl (fun _ => rfl) h
  | bool true, _, _, _, _, h => Lexes.constant rfl (fun _ => rfl) h
  | bool false, _, _, _, _, h => Lexes.constant rfl (fun _ => rfl) h
  | int _, _, _, hplain, hrest, h => Lexes.int hplain hrest h
  | float _, _, _, hplain, _, _ => hplain.elim
  | string s, _, _, _, _, h => Lexes.text s h
  | array [], _, _, _, _, h => Lexes.mark "[" rfl (Lexes.mark "]" rfl h)
  | array (item :: items), rest, _, hplain, _, h => by
    rw [write, String.toList_append, String.toList_append, List.append_assoc, List.append_assoc,
      spelled, List.cons_append, List.append_assoc]
    have hitems := lexes_writeItems items hplain.2 h
    exact Lexes.mark _ rfl (lexes_write item hplain.1 (endsNumber_writeItems items rest) hitems)
  | object [], _, _, _, _, h => Lexes.mark "\x7b" rfl (Lexes.mark "\x7d" rfl h)
  | object ((name, value) :: fields), rest, _, hplain, _, h => by
    rw [write, String.toList_append, String.toList_append, String.toList_append,
      String.toList_append, List.append_assoc, List.append_assoc, List.append_assoc,
      List.append_assoc, spelled, List.cons_append, List.cons_append, List.cons_append,
      List.append_assoc]
    have hfields := lexes_writeFields fields hplain.2.2 h
    have hvalue := lexes_write value hplain.2.1 (endsNumber_writeFields fields rest) hfields
    exact Lexes.mark _ rfl (Lexes.name name hvalue)

theorem lexes_writeItems : ∀ (items : List Json) {rest : List Char} {toks : List Token},
    PlainItems items → Lexes rest toks →
    Lexes ((writeItems items).toList ++ rest) (spelledItems items ++ toks)
  | [], _, _, _, h => by
    rw [writeItems, spelledItems]
    exact Lexes.mark _ rfl h
  | item :: items, rest, _, hplain, h => by
    rw [writeItems, String.toList_append, String.toList_append, List.append_assoc,
      List.append_assoc, spelledItems, List.cons_append, List.append_assoc]
    have hitems := lexes_writeItems items hplain.2 h
    exact Lexes.mark _ rfl (lexes_write item hplain.1 (endsNumber_writeItems items rest) hitems)

theorem lexes_writeFields : ∀ (fields : List (String × Json)) {rest : List Char}
    {toks : List Token}, PlainFields fields → Lexes rest toks →
    Lexes ((writeFields fields).toList ++ rest) (spelledFields fields ++ toks)
  | [], _, _, _, h => by
    rw [writeFields, spelledFields]
    exact Lexes.mark _ rfl h
  | (name, value) :: fields, rest, _, hplain, h => by
    rw [writeFields, String.toList_append, String.toList_append, String.toList_append,
      String.toList_append, List.append_assoc, List.append_assoc, List.append_assoc,
      List.append_assoc, spelledFields, List.cons_append, List.cons_append, List.cons_append,
      List.append_assoc]
    have hfields := lexes_writeFields fields hplain.2 h
    have hvalue := lexes_write value hplain.1 (endsNumber_writeFields fields rest) hfields
    exact Lexes.mark _ rfl (Lexes.name name hvalue)

end

/-! ## 3. From the tokens to the document -/

/-- A token that a document can start with. -/
def Token.startsValue : Token → Bool
  | constant _ | number _ | text _ | openList | openObject => true
  | _ => false

theorem spelled_starts (document : Json) :
    ∃ token rest, document.spelled = token :: rest ∧ token.startsValue = true := by
  cases document with
  | array items => cases items <;> exact ⟨_, _, rfl, rfl⟩
  | object fields => cases fields <;> exact ⟨_, _, rfl, rfl⟩
  | _ => exact ⟨_, _, rfl, rfl⟩

theorem nextItem_first (document : Json) (rest : List Token) :
    nextItem true (document.spelled ++ rest) = .ok (.piece (document.spelled ++ rest)) := by
  obtain ⟨token, more, hspelled, hstarts⟩ := spelled_starts document
  rw [hspelled]
  cases token <;> first | rfl | cases hstarts

theorem nextItem_comma (document : Json) (rest : List Token) :
    nextItem false (.comma :: (document.spelled ++ rest)) =
      .ok (.piece (document.spelled ++ rest)) := by
  obtain ⟨token, more, hspelled, hstarts⟩ := spelled_starts document
  rw [hspelled]
  cases token <;> first | rfl | cases hstarts

/-- Reading one item and then the others reads the list. -/
theorem readItems_cons {fuel depth : Nat} {first : Bool} {tokens start rest after : List Token}
    {item : Json} {items : List Json} (hnext : nextItem first tokens = .ok (.piece start))
    (hitem : readValue fuel depth start = .ok (item, rest))
    (hitems : readItems fuel depth false rest = .ok (items, after)) :
    readItems (fuel + 1) depth first tokens = .ok (item :: items, after) := by
  simp only [readItems, hnext, hitem, hitems]

/-- Reading one field and then the others reads the fields of an object. -/
theorem readFields_cons {fuel depth : Nat} {first : Bool} {tokens start rest after : List Token}
    {name : String} {value : Json} {fields : List (String × Json)}
    (hnext : nextField first tokens = .ok (.piece (name, .colon :: start)))
    (hvalue : readValue fuel depth start = .ok (value, rest))
    (hfields : readFields fuel depth false rest = .ok (fields, after)) :
    readFields (fuel + 1) depth first tokens = .ok ((name, value) :: fields, after) := by
  simp only [readFields, hnext, afterColon, hvalue, hfields]

theorem readValue_array {fuel depth : Nat} {tokens rest : List Token} {items : List Json}
    (hdepth : 1 < depth) (hitems : readItems fuel (depth - 1) true tokens = .ok (items, rest)) :
    readValue (fuel + 1) depth (.openList :: tokens) = .ok (array items, rest) := by
  simp only [readValue, if_neg (Nat.not_le.mpr hdepth), hitems]

theorem readValue_object {fuel depth : Nat} {tokens rest : List Token}
    {fields : List (String × Json)} (hdepth : 1 < depth) (hsorted : Ascending fields)
    (hfields : readFields fuel (depth - 1) true tokens = .ok (fields, rest)) :
    readValue (fuel + 1) depth (.openObject :: tokens) = .ok (object fields, rest) := by
  simp only [readValue, if_neg (Nat.not_le.mpr hdepth), hfields, ofFields_of_ascending hsorted]

mutual

/-- The reader makes the document of its tokens and leaves what follows. -/
theorem readValue_spelled : ∀ (document : Json) (fuel depth : Nat) (rest : List Token),
    document.Plain → document.nesting < depth → 2 * document.spelled.length ≤ fuel →
    readValue fuel depth (document.spelled ++ rest) = .ok (document, rest)
  | null, _ + 1, _, _, _, _, _ => rfl
  | bool _, _ + 1, _, _, _, _, _ => rfl
  | int _, _ + 1, _, _, _, _, _ => rfl
  | float _, _, _, _, hplain, _, _ => hplain.elim
  | string _, _ + 1, _, _, _, _, _ => rfl
  | array [], fuel + 2, depth, rest, _, hdepth, _ => readValue_array hdepth rfl
  | array (item :: items), fuel + 2, depth, rest, hplain, hdepth, hfuel => by
    rw [nesting, nestingItems] at hdepth
    rw [spelled, List.length_cons, List.length_append] at hfuel
    have hitem := readValue_spelled item fuel (depth - 1)
      (spelledItems items ++ rest) hplain.1 (by omega) (by omega)
    have hitems := readItems_spelled items fuel (depth - 1) rest hplain.2
      (by omega) (by omega)
    rw [spelled, List.cons_append, List.append_assoc]
    exact readValue_array (by omega) (readItems_cons (nextItem_first item _) hitem hitems)
  | object [], fuel + 2, depth, rest, hplain, hdepth, _ => readValue_object hdepth hplain.1 rfl
  | object ((name, value) :: fields), fuel + 2, depth, rest, hplain, hdepth, hfuel => by
    rw [nesting, nestingFields] at hdepth
    rw [spelled, List.length_cons, List.length_cons, List.length_cons, List.length_append] at hfuel
    have hvalue := readValue_spelled value fuel (depth - 1)
      (spelledFields fields ++ rest) hplain.2.1 (by omega) (by omega)
    have hfields := readFields_spelled fields fuel (depth - 1) rest hplain.2.2
      (by omega) (by omega)
    rw [spelled, List.cons_append, List.cons_append, List.cons_append, List.append_assoc]
    exact readValue_object (by omega) hplain.1 (readFields_cons rfl hvalue hfields)

theorem readItems_spelled : ∀ (items : List Json) (fuel depth : Nat) (rest : List Token),
    PlainItems items → nestingItems items < depth → 2 * (spelledItems items).length ≤ fuel →
    readItems fuel depth false (spelledItems items ++ rest) = .ok (items, rest)
  | [], _ + 1, _, _, _, _, _ => rfl
  | item :: items, fuel + 1, depth, rest, hplain, hdepth, hfuel => by
    rw [nestingItems] at hdepth
    rw [spelledItems, List.length_cons, List.length_append] at hfuel
    have hitem := readValue_spelled item fuel depth
      (spelledItems items ++ rest) hplain.1 (by omega) (by omega)
    have hitems := readItems_spelled items fuel depth rest hplain.2
      (by omega) (by omega)
    rw [spelledItems, List.cons_append, List.append_assoc]
    exact readItems_cons (nextItem_comma item _) hitem hitems

theorem readFields_spelled : ∀ (fields : List (String × Json)) (fuel depth : Nat)
    (rest : List Token), PlainFields fields → nestingFields fields < depth →
    2 * (spelledFields fields).length ≤ fuel →
    readFields fuel depth false (spelledFields fields ++ rest) = .ok (fields, rest)
  | [], _ + 1, _, _, _, _, _ => rfl
  | (name, value) :: fields, fuel + 1, depth, rest, hplain, hdepth, hfuel => by
    rw [nestingFields] at hdepth
    rw [spelledFields, List.length_cons, List.length_cons, List.length_cons,
      List.length_append] at hfuel
    have hvalue := readValue_spelled value fuel depth
      (spelledFields fields ++ rest) hplain.1 (by omega) (by omega)
    have hfields := readFields_spelled fields fuel depth rest hplain.2
      (by omega) (by omega)
    rw [spelledFields, List.cons_append, List.cons_append, List.cons_append, List.append_assoc]
    exact readFields_cons rfl hvalue hfields

end

end Sequencer.Json
