import Mathlib.Data.List.Forall2
import Mathlib.Data.List.Nodup
import Sequencer.Proofs.Json.Fields
import Sequencer.Value

/-!
# Codec — the values that come back from their documents

A value of a shape is written as a document and read back as a value of that shape.  It comes back
as it was unless something in it is written as `null` that is not missing: a double that is not
finite, or a value that is there but is itself nothing.
-/

namespace Sequencer

open Json (Ascending Distinct)

/-! ## 1. Values of a shape -/

mutual

/-- The values of a shape. -/
def Shape.Admits : Shape → Value → Prop
  | .int _ least greatest, .int n => least ≤ n ∧ n ≤ greatest
  | .float, .float _ => True
  | .bool, .bool _ => True
  | .text, .text _ => True
  | .list item, .list items => Shape.AdmitsItems item items
  | .option _, .option none => True
  | .option content, .option (some value) => Shape.Admits content value
  | .map item, .map fields => Ascending fields ∧ Shape.AdmitsEntries item fields
  | .record name fields, .record given values =>
    name = given ∧ Distinct fields ∧ Shape.AdmitsFields fields values
  | .json, .json _ => True
  | .sealed, .sealed n => -(wordSize 63 : Int) ≤ n ∧ n ≤ maxWord 63
  | _, _ => False

/-- The lists of values of a shape. -/
def Shape.AdmitsItems : Shape → List Value → Prop
  | _, [] => True
  | shape, item :: rest => shape.Admits item ∧ shape.AdmitsItems rest

/-- The entries with values of a shape. -/
def Shape.AdmitsEntries : Shape → List (String × Value) → Prop
  | _, [] => True
  | shape, (_, value) :: rest => shape.Admits value ∧ shape.AdmitsEntries rest

/-- The fields of a structure, in its order. -/
def Shape.AdmitsFields : List (String × Shape) → List (String × Value) → Prop
  | [], [] => True
  | (name, shape) :: fields, (given, value) :: values =>
    name = given ∧ shape.Admits value ∧ Shape.AdmitsFields fields values
  | _, _ => False

end

/-- A value that stands for nothing. -/
def Value.isNothing : Value → Bool
  | option none => true
  | json .null => true
  | _ => false

mutual

/-- All doubles in it are finite, and what is there is not nothing. -/
def Value.Clear : Value → Prop
  | .float x => x.isFinite = true
  | .list items => Value.ClearItems items
  | .option (some content) => content.Clear ∧ content.isNothing = false
  | .map fields => Value.ClearFields fields
  | .record _ fields => Value.ClearFields fields
  | _ => True

/-- A list of clear values. -/
def Value.ClearItems : List Value → Prop
  | [] => True
  | item :: rest => item.Clear ∧ Value.ClearItems rest

/-- Fields with clear values. -/
def Value.ClearFields : List (String × Value) → Prop
  | [] => True
  | (_, value) :: rest => value.Clear ∧ Value.ClearFields rest

end

/-! ## 2. Writing step by step -/

theorem bind_eq_ok {ε α β : Type} {step : Except ε α} {next : α → Except ε β} {result : β} :
    step >>= next = .ok result ↔ ∃ a, step = .ok a ∧ next a = .ok result := by
  cases step with
  | error failure => exact ⟨nofun, nofun⟩
  | ok a =>
    constructor
    · intro h
      exact ⟨a, rfl, h⟩
    · rintro ⟨_, ⟨⟩, h⟩
      exact h

namespace Value

theorem encodeInt_eq_ok {n : Int} {document : Json} (h : encodeInt n = .ok document) :
    document = .int n := by
  unfold encodeInt at h
  split at h
  · cases h
    rfl
  · cases h

theorem encodeItems_cons {item : Value} {items : List Value} {documents : List Json}
    (h : encodeItems (item :: items) = .ok documents) :
    ∃ document others, item.encode = .ok document ∧ encodeItems items = .ok others ∧
      documents = document :: others := by
  obtain ⟨document, hdocument, h⟩ := bind_eq_ok.mp h
  obtain ⟨others, hothers, h⟩ := bind_eq_ok.mp h
  cases h
  exact ⟨document, others, hdocument, hothers, rfl⟩

theorem encodeFields_cons {name : String} {value : Value} {fields : List (String × Value)}
    {documents : List (String × Json)}
    (h : encodeFields ((name, value) :: fields) = .ok documents) :
    ∃ document others, value.encode = .ok document ∧ encodeFields fields = .ok others ∧
      documents = (name, document) :: others := by
  obtain ⟨document, hdocument, h⟩ := bind_eq_ok.mp h
  obtain ⟨others, hothers, h⟩ := bind_eq_ok.mp h
  cases h
  exact ⟨document, others, hdocument, hothers, rfl⟩

theorem names_encodeFields {fields : List (String × Value)} {documents : List (String × Json)}
    (h : encodeFields fields = .ok documents) : documents.map (·.1) = fields.map (·.1) := by
  induction fields generalizing documents with
  | nil =>
    cases h
    rfl
  | cons field fields ih =>
    obtain ⟨document, others, -, hothers, rfl⟩ := encodeFields_cons h
    rw [List.map_cons, List.map_cons, ih hothers]

/-- A clear value that is not nothing is not written as `null`. -/
theorem encode_ne_null : ∀ value : Value, value.Clear → value.isNothing = false →
    value.encode ≠ .ok .null
  | .int _, _, _ => fun h => by cases encodeInt_eq_ok h
  | .float x, hclear, _ => by
    rw [encode, Json.ofBinary64, if_pos (show x.isFinite = true from hclear)]
    rintro ⟨⟩
  | .bool _, _, _ => by rintro ⟨⟩
  | .text _, _, _ => by rintro ⟨⟩
  | .list items, _, _ => fun h => by
    obtain ⟨documents, -, h⟩ := bind_eq_ok.mp h
    cases h
  | .option none, _, hthere => by cases hthere
  | .option (some content), hclear, _ => encode_ne_null content hclear.1 hclear.2
  | .map fields, _, _ => fun h => by
    obtain ⟨documents, -, h⟩ := bind_eq_ok.mp h
    cases h
  | .record _ fields, _, _ => fun h => by
    obtain ⟨documents, -, h⟩ := bind_eq_ok.mp h
    cases h
  | .json document, _, hthere => by
    rintro ⟨⟩
    cases hthere
  | .sealed _, _, _ => by rintro ⟨⟩
  | .pairs [], _, _ => by rintro ⟨⟩
  | .pairs (_ :: _), _, _ => by rintro ⟨⟩

theorem encode_of_isNothing {value : Value} {document : Json} (h : value.isNothing = true)
    (hencode : value.encode = .ok document) : document = .null := by
  unfold isNothing at h
  split at h
  · cases hencode
    rfl
  · cases hencode
    rfl
  · cases h

/-- Of the clear values exactly those that are nothing are written as `null`. -/
theorem ne_null_iff {value : Value} {document : Json} (hclear : value.Clear)
    (hencode : value.encode = .ok document) : document ≠ .null ↔ value.isNothing = false := by
  constructor
  · intro hthere
    rw [Bool.eq_false_iff]
    exact fun hnothing => hthere (encode_of_isNothing hnothing hencode)
  · rintro hthere rfl
    exact encode_ne_null value hclear hthere hencode

end Value

/-! ## 3. Reading the fields of a structure -/

namespace Shape

/-- The document of a name is read as the value of that name. -/
def Answers (fields : FieldReaders) (given : String × Json) (value : String × Value) : Prop :=
  value.1 = given.1 ∧ ∃ field, fields.find? (fun field => field.1 = given.1) = some field ∧
    field.2.2 given.2 = .ok value.2

/-- The fields of a structure that are all known are read one by one. -/
theorem readFields_eq_ok {fields : FieldReaders} {given : List (String × Json)}
    {values : List (String × Value)}
    (hknown : ∀ entry ∈ given, (fields.find? fun field => field.1 = entry.1).isSome) :
    readFields fields given = .ok values ↔ List.Forall₂ (Answers fields) given values := by
  induction given generalizing values with
  | nil =>
    rw [List.forall₂_nil_left_iff]
    exact ⟨fun h => by cases h; rfl, fun h => by rw [h]; rfl⟩
  | cons entry given ih =>
    obtain ⟨name, document⟩ := entry
    obtain ⟨field, hfield⟩ := Option.isSome_iff_exists.mp (hknown _ List.mem_cons_self)
    have hrest : ∀ {others},
        readFields fields given = .ok others ↔ List.Forall₂ (Answers fields) given others :=
      ih fun other hother => hknown other (List.mem_cons_of_mem _ hother)
    simp only [readFields, hfield, List.forall₂_cons_left_iff]
    constructor
    · intro h
      obtain ⟨value, hvalue, h⟩ := bind_eq_ok.mp h
      obtain ⟨others, hothers, h⟩ := bind_eq_ok.mp h
      cases h
      exact ⟨(name, value), others, ⟨rfl, field, hfield, hvalue⟩, hrest.mp hothers, rfl⟩
    · rintro ⟨⟨other, value⟩, others, ⟨hname, found, hfound, hvalue⟩, hothers, rfl⟩
      cases hname
      rw [hfield] at hfound
      cases hfound
      exact bind_eq_ok.mpr ⟨value, hvalue, bind_eq_ok.mpr ⟨others, hrest.mpr hothers, rfl⟩⟩

/-- Fields of a structure that are all there are put in its order. -/
theorem complete_eq_ok {fields : FieldReaders} {read values : List (String × Value)}
    (hthere : ∀ field ∈ fields, (read.find? fun value => value.1 = field.1).isSome) :
    complete read fields = .ok values ↔
      List.Forall₂ (fun field value => read.find? (fun other => other.1 = field.1) = some value)
        fields values := by
  induction fields generalizing values with
  | nil =>
    rw [List.forall₂_nil_left_iff]
    exact ⟨fun h => by cases h; rfl, fun h => by rw [h]; rfl⟩
  | cons field fields ih =>
    obtain ⟨name, mayMiss, item⟩ := field
    obtain ⟨value, hvalue⟩ := Option.isSome_iff_exists.mp (hthere _ List.mem_cons_self)
    have hname : value.1 = name := by simpa using List.find?_some hvalue
    have hrest : ∀ {others}, complete read fields = .ok others ↔
        List.Forall₂ (fun field value => read.find? (fun other => other.1 = field.1) = some value)
          fields others :=
      ih fun other hother => hthere other (List.mem_cons_of_mem _ hother)
    simp only [complete, hvalue, List.forall₂_cons_left_iff, Option.some.injEq]
    constructor
    · intro h
      obtain ⟨others, hothers, h⟩ := bind_eq_ok.mp h
      cases h
      exact ⟨(name, value.2), others, Prod.ext hname rfl, hrest.mp hothers, rfl⟩
    · rintro ⟨other, others, rfl, hothers, rfl⟩
      exact bind_eq_ok.mpr ⟨others, hrest.mpr hothers, by rw [← hname]; rfl⟩

/-- The fields of a structure, their documents and their values, each document read as its
value. -/
def ReadsFields : FieldReaders → List (String × Json) → List (String × Value) → Prop
  | [], [], [] => True
  | field :: fields, given :: documents, value :: values =>
    field.2.2 given.2 = .ok value.2 ∧ ReadsFields fields documents values
  | _, _, _ => False

theorem exists_of_mem_right {α β : Type} {R : α → β → Prop} {xs : List α} {ys : List β}
    (h : List.Forall₂ R xs ys) {y : β} (hy : y ∈ ys) : ∃ x ∈ xs, R x y := by
  induction h with
  | nil => cases hy
  | cons hfirst _ ih =>
    rcases List.mem_cons.mp hy with rfl | hy
    · exact ⟨_, List.mem_cons_self, hfirst⟩
    · obtain ⟨x, hx, hxy⟩ := ih hy
      exact ⟨x, List.mem_cons_of_mem _ hx, hxy⟩

theorem exists_forall₂ {α β : Type} {R : α → β → Prop} {xs : List α}
    (h : ∀ x ∈ xs, ∃ y, R x y) : ∃ ys, List.Forall₂ R xs ys := by
  induction xs with
  | nil => exact ⟨[], .nil⟩
  | cons x xs ih =>
    obtain ⟨y, hy⟩ := h x List.mem_cons_self
    obtain ⟨ys, hys⟩ := ih fun other hother => h other (List.mem_cons_of_mem _ hother)
    exact ⟨y :: ys, .cons hy hys⟩

/-- What holds of every two entries of one name holds along two lists with the same names. -/
theorem forall₂_of_names {α β : Type} {R : String × α → String × β → Prop}
    {xs : List (String × α)} {ys : List (String × β)} (hnames : ys.map (·.1) = xs.map (·.1))
    (h : ∀ x ∈ xs, ∀ y ∈ ys, y.1 = x.1 → R x y) : List.Forall₂ R xs ys := by
  induction xs generalizing ys with
  | nil =>
    rw [List.map_eq_nil_iff.mp hnames]
    exact .nil
  | cons x xs ih =>
    cases ys with
    | nil => cases hnames
    | cons y ys =>
      obtain ⟨hname, hnames⟩ := List.cons.inj hnames
      refine .cons (h x List.mem_cons_self y List.mem_cons_self hname) (ih hnames ?_)
      intro x' hx y' hy
      exact h x' (List.mem_cons_of_mem _ hx) y' (List.mem_cons_of_mem _ hy)

/-- Of entries with different names those of one name are the same. -/
theorem eq_of_distinct {α : Type} {xs : List (String × α)} (h : Distinct xs) {x y : String × α}
    (hx : x ∈ xs) (hy : y ∈ xs) (hname : x.1 = y.1) : x = y :=
  List.inj_on_of_nodup_map h hx hy hname

/-- Along three lists with the same names, each name once, the documents are read as the values if
the document of each name is read as the value of that name. -/
theorem readsFields_iff {fields : FieldReaders} {documents : List (String × Json)}
    {values : List (String × Value)} (hdistinct : Distinct fields)
    (hdocuments : documents.map (·.1) = fields.map (·.1))
    (hvalues : values.map (·.1) = fields.map (·.1)) :
    ReadsFields fields documents values ↔ ∀ field ∈ fields, ∀ given ∈ documents,
      ∀ value ∈ values, given.1 = field.1 → value.1 = field.1 →
        field.2.2 given.2 = .ok value.2 := by
  induction fields generalizing documents values with
  | nil =>
    rw [List.map_eq_nil_iff.mp hdocuments, List.map_eq_nil_iff.mp hvalues]
    exact ⟨fun _ => nofun, fun _ => trivial⟩
  | cons field fields ih =>
    have hgivens : Distinct documents := by rw [Distinct, hdocuments]; exact hdistinct
    have hkept : Distinct values := by rw [Distinct, hvalues]; exact hdistinct
    cases documents with
    | nil => cases hdocuments
    | cons given documents =>
      cases values with
      | nil => cases hvalues
      | cons value values =>
        obtain ⟨hgiven, hdocuments⟩ := List.cons.inj hdocuments
        obtain ⟨hvalue, hvalues⟩ := List.cons.inj hvalues
        obtain ⟨hnew, hdistinct⟩ := List.nodup_cons.mp hdistinct
        rw [ReadsFields, ih hdistinct hdocuments hvalues]
        constructor
        · rintro ⟨hfirst, hothers⟩ f hf g hg v hv hgname hvname
          rcases List.mem_cons.mp hf with rfl | hf
          · rw [eq_of_distinct hgivens hg List.mem_cons_self (hgname.trans hgiven.symm),
              eq_of_distinct hkept hv List.mem_cons_self (hvname.trans hvalue.symm)]
            exact hfirst
          · -- another name is behind the first one in each of the three lists
            have hother : f.1 ≠ field.1 := fun hsame =>
              hnew (List.mem_map.mpr ⟨f, hf, hsame⟩)
            rcases List.mem_cons.mp hg with rfl | hg
            · exact absurd (hgname.symm.trans hgiven) hother
            · rcases List.mem_cons.mp hv with rfl | hv
              · exact absurd (hvname.symm.trans hvalue) hother
              · exact hothers f hf g hg v hv hgname hvname
        · intro h
          refine ⟨h field List.mem_cons_self given List.mem_cons_self value List.mem_cons_self
            hgiven hvalue, fun f hf g hg v hv => ?_⟩
          exact h f (List.mem_cons_of_mem _ hf) g (List.mem_cons_of_mem _ hg) v
            (List.mem_cons_of_mem _ hv)

/-- The values that were read from the fields of an object have the names of these fields. -/
theorem names_of_answers {fields : FieldReaders} {given : List (String × Json)}
    {read : List (String × Value)} (h : List.Forall₂ (Answers fields) given read) :
    read.map (·.1) = given.map (·.1) := by
  induction h with
  | nil => rfl
  | cons hfirst _ ih => rw [List.map_cons, List.map_cons, hfirst.1, ih]

theorem isSome_find?_of_name {α : Type} {xs : List (String × α)} {name : String}
    (h : name ∈ xs.map (·.1)) : (xs.find? fun x => x.1 = name).isSome := by
  obtain ⟨x, hx, hname⟩ := List.mem_map.mp h
  exact List.find?_isSome.mpr ⟨x, hx, by simpa using hname⟩

section Record

variable {name : String} {fields : FieldReaders} {documents sorted : List (String × Json)}
  {values read : List (String × Value)}

/-- An object has exactly the fields of a structure, each once, in any order. -/
structure Lists (fields : FieldReaders) (documents sorted : List (String × Json)) : Prop where
  distinct : Distinct fields
  names : documents.map (·.1) = fields.map (·.1)
  perm : sorted.Perm documents

theorem Lists.mem_names (lists : Lists fields documents sorted) (name : String) :
    name ∈ sorted.map (·.1) ↔ name ∈ fields.map (·.1) := by
  rw [← lists.names]
  exact (lists.perm.map _).mem_iff

theorem Lists.distinctDocuments (lists : Lists fields documents sorted) : Distinct documents := by
  rw [Distinct, lists.names]
  exact lists.distinct

theorem Lists.readFields_eq_ok (lists : Lists fields documents sorted) :
    readFields fields sorted = .ok read ↔ List.Forall₂ (Answers fields) sorted read :=
  Shape.readFields_eq_ok fun _ hentry =>
    isSome_find?_of_name ((lists.mem_names _).mp (List.mem_map_of_mem hentry))

theorem Lists.complete_eq_ok (lists : Lists fields documents sorted)
    (hread : List.Forall₂ (Answers fields) sorted read) :
    complete read fields = .ok values ↔
      List.Forall₂ (fun field value => read.find? (fun other => other.1 = field.1) = some value)
        fields values :=
  Shape.complete_eq_ok fun _ hfield => isSome_find?_of_name (by
    rw [names_of_answers hread]
    exact (lists.mem_names _).mpr (List.mem_map_of_mem hfield))

theorem readRecord_object_eq_ok :
    readRecord name fields (.object sorted) = .ok (.record name values) ↔
      ∃ read, readFields fields sorted = .ok read ∧ complete read fields = .ok values := by
  show (do return Value.record name (← complete (← readFields fields sorted) fields)) = _ ↔ _
  rw [bind_eq_ok]
  refine exists_congr fun read => and_congr_right fun _ => ?_
  rw [bind_eq_ok]
  constructor
  · rintro ⟨completed, hcompleted, ⟨⟩⟩
    exact hcompleted
  · intro h
    exact ⟨values, h, rfl⟩

/-- A structure is read from an object with its fields in any order. -/
theorem Lists.readRecord_eq_ok (lists : Lists fields documents sorted)
    (hvalues : values.map (·.1) = fields.map (·.1)) :
    readRecord name fields (.object sorted) = .ok (.record name values) ↔
      ReadsFields fields documents values := by
  have hkept : Distinct values := by rw [Distinct, hvalues]; exact lists.distinct
  rw [readRecord_object_eq_ok, readsFields_iff lists.distinct lists.names hvalues]
  constructor
  · rintro ⟨read, hread, hcomplete⟩ field hfield given hgiven value hvalue hgname hvname
    have hread := lists.readFields_eq_ok.mp hread
    obtain ⟨named, -, hnamed⟩ :=
      exists_of_mem_right ((lists.complete_eq_ok hread).mp hcomplete) hvalue
    obtain ⟨entry, hentry, hname, found, hfound, hdecoded⟩ :=
      exists_of_mem_right hread (List.mem_of_find?_eq_some hnamed)
    have hsame : entry.1 = field.1 := hname.symm.trans hvname
    rw [hsame, Json.find?_of_distinct lists.distinct hfield] at hfound
    cases hfound
    rw [← eq_of_distinct lists.distinctDocuments (lists.perm.mem_iff.mp hentry) hgiven
      (hsame.trans hgname.symm)]
    exact hdecoded
  · intro h
    have hanswers : ∀ entry ∈ sorted, ∃ value, Answers fields entry value ∧ value ∈ values := by
      intro entry hentry
      have hname := (lists.mem_names _).mp (List.mem_map_of_mem hentry)
      obtain ⟨field, hfield, hfname⟩ := List.mem_map.mp hname
      rw [← hvalues] at hname
      obtain ⟨value, hvalue, hvname⟩ := List.mem_map.mp hname
      have hdecoded := h field hfield entry (lists.perm.mem_iff.mp hentry) value hvalue
        hfname.symm (hvname.trans hfname.symm)
      have hfind := Json.find?_of_distinct lists.distinct hfield
      rw [hfname] at hfind
      exact ⟨value, ⟨hvname, field, hfind, hdecoded⟩, hvalue⟩
    obtain ⟨read, hboth⟩ := exists_forall₂ hanswers
    have hread : List.Forall₂ (Answers fields) sorted read := hboth.imp fun _ _ h => h.1
    refine ⟨read, lists.readFields_eq_ok.mpr hread, (lists.complete_eq_ok hread).mpr ?_⟩
    refine forall₂_of_names hvalues fun field hfield value hvalue hname => ?_
    have hmem : field.1 ∈ read.map (·.1) := by
      rw [names_of_answers hread]
      exact (lists.mem_names _).mpr (List.mem_map_of_mem hfield)
    obtain ⟨other, hother⟩ := Option.isSome_iff_exists.mp (isSome_find?_of_name hmem)
    obtain ⟨_, -, hkeptOther⟩ := exists_of_mem_right hboth (List.mem_of_find?_eq_some hother)
    have honame : other.1 = field.1 := by simpa using List.find?_some hother
    rw [hother, eq_of_distinct hkept hkeptOther.2 hvalue (honame.trans hname.symm)]

end Record

end Shape

/-! ## 4. Reading back what was written -/

theorem Shape.names_admitsFields {fields : List (String × Shape)} {values : List (String × Value)}
    (h : Shape.AdmitsFields fields values) : values.map (·.1) = fields.map (·.1) := by
  induction fields generalizing values with
  | nil =>
    cases values with
    | nil => rfl
    | cons value values => cases h
  | cons field fields ih =>
    cases values with
    | nil => cases h
    | cons value values =>
      obtain ⟨hname, -, hrest⟩ := h
      rw [List.map_cons, List.map_cons, ih hrest, hname]

theorem Shape.names_readers (fields : List (String × Shape)) :
    (Shape.readers fields).map (·.1) = fields.map (·.1) := by
  induction fields with
  | nil => rfl
  | cons field fields ih => rw [Shape.readers, List.map_cons, List.map_cons, ih]

/-- The documents of the fields of a structure make an object that lists these fields. -/
theorem Shape.lists_of_encode {fields : List (String × Shape)} {values : List (String × Value)}
    {documents : List (String × Json)} (hdistinct : Distinct fields)
    (hadmits : Shape.AdmitsFields fields values)
    (hencode : Value.encodeFields values = .ok documents) :
    ∃ sorted, Json.ofFields documents = .object sorted ∧
      Shape.Lists (Shape.readers fields) documents sorted := by
  have hreaders := Shape.names_readers fields
  have hnames := (Value.names_encodeFields hencode).trans (Shape.names_admitsFields hadmits)
  have hdocuments : Distinct documents := by
    rw [Distinct, hnames]
    exact hdistinct
  obtain ⟨sorted, hsorted, hperm⟩ := Json.ofFields_of_distinct hdocuments
  refine ⟨sorted, hsorted, ?_, hnames.trans hreaders.symm, hperm⟩
  rw [Distinct, hreaders]
  exact hdistinct

theorem map_eq_ok {ε α β : Type} {step : Except ε α} {f : α → β} {a : α}
    (hf : Function.Injective f) : step.map f = .ok (f a) ↔ step = .ok a := by
  cases step with
  | error failure => exact ⟨nofun, nofun⟩
  | ok b => exact ⟨fun h => by rw [hf (Except.ok.inj h)], fun h => by rw [Except.ok.inj h]; rfl⟩

theorem Shape.decode_some_eq_ok {content : Shape} {document : Json} {value : Value} :
    (Shape.option content).decode document = .ok (.option (some value)) ↔
      content.decode document = .ok value ∧ document ≠ .null := by
  have hinjective : Function.Injective fun value : Value => Value.option (some value) :=
    fun _ _ h => Option.some.inj (Value.option.inj h)
  cases document with
  | null => exact iff_of_false (by rintro ⟨⟩) fun h => h.2 rfl
  | _ => exact (map_eq_ok hinjective).trans (and_iff_left (by rintro ⟨⟩)).symm

theorem Shape.readItems_cons_eq_ok {item : Reader} {document : Json} {documents : List Json}
    {value : Value} {values : List Value} :
    readItems item (document :: documents) = .ok (value :: values) ↔
      item document = .ok value ∧ readItems item documents = .ok values := by
  rw [readItems, bind_eq_ok]
  constructor
  · rintro ⟨first, hfirst, h⟩
    obtain ⟨others, hothers, ⟨⟩⟩ := bind_eq_ok.mp h
    exact ⟨hfirst, hothers⟩
  · rintro ⟨hfirst, hothers⟩
    exact ⟨value, hfirst, bind_eq_ok.mpr ⟨values, hothers, rfl⟩⟩

theorem Shape.readEntries_cons_eq_ok {item : Reader} {name : String} {document : Json}
    {documents : List (String × Json)} {value : Value} {values : List (String × Value)} :
    readEntries item ((name, document) :: documents) = .ok ((name, value) :: values) ↔
      item document = .ok value ∧ readEntries item documents = .ok values := by
  rw [readEntries, bind_eq_ok]
  constructor
  · rintro ⟨first, hfirst, h⟩
    obtain ⟨others, hothers, ⟨⟩⟩ := bind_eq_ok.mp h
    exact ⟨hfirst, hothers⟩
  · rintro ⟨hfirst, hothers⟩
    exact ⟨value, hfirst, bind_eq_ok.mpr ⟨values, hothers, rfl⟩⟩

mutual

/-- What a value of a shape is written as is read back as that value exactly if it is clear. -/
theorem decode_eq_ok_iff_clear : ∀ (value : Value) {shape : Shape} {document : Json},
    shape.Admits value → value.encode = .ok document →
    (shape.decode document = .ok value ↔ value.Clear)
  | .int n, shape, _, hadmits, hencode => by
    obtain rfl := Value.encodeInt_eq_ok hencode
    cases shape with
    | int name least greatest =>
      rw [Shape.decode, Shape.decodeInt, if_pos (show least ≤ n ∧ n ≤ greatest from hadmits)]
      exact iff_of_true rfl trivial
    | _ => exact hadmits.elim
  | .float x, shape, _, hadmits, hencode => by
    cases hencode
    cases shape with
    | float =>
      by_cases hfinite : x.isFinite = true
      · rw [Json.ofBinary64, if_pos hfinite]
        exact iff_of_true rfl hfinite
      · rw [Json.ofBinary64, if_neg hfinite]
        exact iff_of_false nofun hfinite
    | _ => exact hadmits.elim
  | .bool b, shape, _, hadmits, hencode => by
    cases hencode
    cases shape with
    | bool => exact iff_of_true rfl trivial
    | _ => exact hadmits.elim
  | .text s, shape, _, hadmits, hencode => by
    cases hencode
    cases shape with
    | text => exact iff_of_true rfl trivial
    | _ => exact hadmits.elim
  | .list items, shape, _, hadmits, hencode => by
    cases shape with
    | list item =>
      obtain ⟨documents, hdocuments, ⟨⟩⟩ := bind_eq_ok.mp hencode
      rw [Shape.decode]
      exact (map_eq_ok fun _ _ h => Value.list.inj h).trans
        (readItems_eq_ok_iff_clear items hadmits hdocuments)
    | _ => exact hadmits.elim
  | .option none, shape, _, hadmits, hencode => by
    cases hencode
    cases shape with
    | option content => exact iff_of_true rfl trivial
    | _ => exact hadmits.elim
  | .option (some inner), shape, document, hadmits, hencode => by
    cases shape with
    | option content =>
      -- What is written as `null` is read as missing.
      rw [Shape.decode_some_eq_ok, decode_eq_ok_iff_clear inner hadmits hencode]
      exact and_congr_right fun hclear => Value.ne_null_iff hclear hencode
    | _ => exact hadmits.elim
  | .map fields, shape, _, hadmits, hencode => by
    cases shape with
    | map item =>
      obtain ⟨documents, hdocuments, ⟨⟩⟩ := bind_eq_ok.mp hencode
      have hascending : Ascending documents :=
        Json.ascending_of_names (Value.names_encodeFields hdocuments) hadmits.1
      rw [Json.ofFields_of_ascending hascending, Shape.decode]
      exact (map_eq_ok fun _ _ h => Value.map.inj h).trans
        (readEntries_eq_ok_iff_clear fields hadmits.2 hdocuments)
    | _ => exact hadmits.elim
  | .record given values, shape, _, hadmits, hencode => by
    cases shape with
    | record name fields =>
      obtain ⟨rfl, hdistinct, hfields⟩ := hadmits
      obtain ⟨documents, hdocuments, ⟨⟩⟩ := bind_eq_ok.mp hencode
      obtain ⟨sorted, hsorted, lists⟩ := Shape.lists_of_encode hdistinct hfields hdocuments
      have hvalues : values.map (·.1) = (Shape.readers fields).map (·.1) :=
        (Shape.names_admitsFields hfields).trans (Shape.names_readers fields).symm
      rw [hsorted, Shape.decode]
      exact (lists.readRecord_eq_ok hvalues).trans
        (readsFields_iff_clear values hfields hdocuments)
    | _ => exact hadmits.elim
  | .json document, shape, _, hadmits, hencode => by
    cases hencode
    cases shape with
    | json => exact iff_of_true rfl trivial
    | _ => exact hadmits.elim
  | .sealed _, _, _, _, hencode => by cases hencode
  | .pairs _, shape, _, hadmits, _ => by
    cases shape <;> exact hadmits.elim

theorem readItems_eq_ok_iff_clear : ∀ (items : List Value) {shape : Shape} {documents : List Json},
    shape.AdmitsItems items → Value.encodeItems items = .ok documents →
    (Shape.readItems shape.decode documents = .ok items ↔ Value.ClearItems items)
  | [], _, _, _, hencode => by
    cases hencode
    exact iff_of_true rfl trivial
  | item :: items, shape, _, hadmits, hencode => by
    obtain ⟨document, others, hdocument, hothers, rfl⟩ := Value.encodeItems_cons hencode
    rw [Value.ClearItems, ← decode_eq_ok_iff_clear item hadmits.1 hdocument,
      ← readItems_eq_ok_iff_clear items hadmits.2 hothers]
    exact Shape.readItems_cons_eq_ok

theorem readEntries_eq_ok_iff_clear : ∀ (fields : List (String × Value)) {shape : Shape}
    {documents : List (String × Json)}, shape.AdmitsEntries fields →
    Value.encodeFields fields = .ok documents →
    (Shape.readEntries shape.decode documents = .ok fields ↔ Value.ClearFields fields)
  | [], _, _, _, hencode => by
    cases hencode
    exact iff_of_true rfl trivial
  | (name, value) :: fields, shape, _, hadmits, hencode => by
    obtain ⟨document, others, hdocument, hothers, rfl⟩ := Value.encodeFields_cons hencode
    rw [Value.ClearFields, ← decode_eq_ok_iff_clear value hadmits.1 hdocument,
      ← readEntries_eq_ok_iff_clear fields hadmits.2 hothers]
    exact Shape.readEntries_cons_eq_ok

theorem readsFields_iff_clear : ∀ (values : List (String × Value))
    {fields : List (String × Shape)} {documents : List (String × Json)},
    Shape.AdmitsFields fields values → Value.encodeFields values = .ok documents →
    (Shape.ReadsFields (Shape.readers fields) documents values ↔ Value.ClearFields values)
  | [], [], _, _, hencode => by
    cases hencode
    exact iff_of_true trivial trivial
  | [], _ :: _, _, hadmits, _ => hadmits.elim
  | (_, _) :: _, [], _, hadmits, _ => hadmits.elim
  | (name, value) :: values, (_, shape) :: fields, _, hadmits, hencode => by
    obtain ⟨document, others, hdocument, hothers, rfl⟩ := Value.encodeFields_cons hencode
    rw [Value.ClearFields, ← decode_eq_ok_iff_clear value hadmits.2.1 hdocument,
      ← readsFields_iff_clear values hadmits.2.2 hothers]
    rfl

end

end Sequencer
