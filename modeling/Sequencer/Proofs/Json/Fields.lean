import Mathlib.Data.String.Basic
import Sequencer.Json

/-!
# Fields — the objects of fields in some order

An object keeps its fields in ascending order of their names.  Fields that come in that order stay
as they are; fields that come in another order, each name once, are put in order and none is lost.
-/

namespace Sequencer.Json

/-! ## 1. Fields in order -/

/-- Each name comes before the names after it. -/
def Ascending {α : Type} (fields : List (String × α)) : Prop :=
  fields.Pairwise fun a b => a.1 < b.1

instance {α : Type} : DecidablePred (Ascending (α := α)) := fun fields =>
  inferInstanceAs (Decidable (fields.Pairwise fun a b => a.1 < b.1))

theorem insertField_of_greatest {name : String} {value : Json} {fields : List (String × Json)}
    (h : ∀ field ∈ fields, field.1 < name) :
    insertField name value fields = fields ++ [(name, value)] := by
  induction fields with
  | nil => rfl
  | cons field fields ih =>
    have hfirst := h field List.mem_cons_self
    rw [insertField, if_neg hfirst.ne', if_neg hfirst.not_gt,
      ih fun other hother => h other (List.mem_cons_of_mem _ hother)]
    rfl

theorem foldl_insertField_of_ascending (sorted fields : List (String × Json))
    (h : Ascending (sorted ++ fields)) :
    fields.foldl (fun sorted field => insertField field.1 field.2 sorted) sorted =
      sorted ++ fields := by
  induction fields generalizing sorted with
  | nil => exact (List.append_nil _).symm
  | cons field fields ih =>
    have hbefore : ∀ other ∈ sorted, other.1 < field.1 := fun other hother =>
      (List.pairwise_append.mp h).2.2 other hother field List.mem_cons_self
    rw [List.foldl_cons, insertField_of_greatest hbefore, ih, List.append_assoc]
    · rfl
    · rw [List.append_assoc]
      exact h

theorem ofFields_of_ascending {fields : List (String × Json)} (h : Ascending fields) :
    ofFields fields = object fields := by
  rw [ofFields, foldl_insertField_of_ascending [] fields h]
  rfl

theorem ascending_of_names {α β : Type} {fields : List (String × α)} {others : List (String × β)}
    (hnames : others.map (·.1) = fields.map (·.1)) (h : Ascending fields) : Ascending others := by
  have hsorted : (others.map (·.1)).Pairwise (· < ·) := by
    rw [hnames]
    exact List.pairwise_map.mpr h
  exact List.pairwise_map.mp hsorted

/-! ## 2. Fields in any order -/

/-- Each name once. -/
def Distinct {α : Type} (fields : List (String × α)) : Prop := (fields.map (·.1)).Nodup

instance {α : Type} : DecidablePred (Distinct (α := α)) := fun fields =>
  inferInstanceAs (Decidable (fields.map (·.1)).Nodup)

theorem perm_insertField {name : String} {fields : List (String × Json)}
    (h : name ∉ fields.map (·.1)) (value : Json) :
    (insertField name value fields).Perm ((name, value) :: fields) := by
  induction fields with
  | nil => exact List.Perm.refl _
  | cons field fields ih =>
    rw [List.map_cons, List.mem_cons, not_or] at h
    rw [insertField, if_neg h.1]
    split
    · exact List.Perm.refl _
    · exact ((ih h.2).cons field).trans (List.Perm.swap _ _ _)

theorem perm_foldl_insertField (sorted fields : List (String × Json))
    (h : Distinct (sorted ++ fields)) :
    (fields.foldl (fun sorted field => insertField field.1 field.2 sorted) sorted).Perm
      (sorted ++ fields) := by
  induction fields generalizing sorted with
  | nil =>
    rw [List.append_nil]
    exact List.Perm.refl _
  | cons field fields ih =>
    have hmoved : (field :: (sorted ++ fields)).Perm (sorted ++ field :: fields) :=
      List.perm_middle.symm
    have hdistinct : Distinct (field :: (sorted ++ fields)) :=
      (hmoved.map _).nodup_iff.mpr h
    have hnew : field.1 ∉ sorted.map (·.1) := fun hmem =>
      (List.nodup_cons.mp hdistinct).1 (by
        rw [List.map_append]
        exact List.mem_append_left _ hmem)
    have hinsert := perm_insertField hnew field.2
    rw [List.foldl_cons]
    refine (ih _ ?_).trans ((hinsert.append_right fields).trans hmoved)
    exact ((hinsert.append_right fields).map _).nodup_iff.mpr hdistinct

/-- An object of fields with different names has exactly these fields. -/
theorem ofFields_of_distinct {fields : List (String × Json)} (h : Distinct fields) :
    ∃ sorted, ofFields fields = object sorted ∧ sorted.Perm fields :=
  ⟨_, rfl, perm_foldl_insertField [] fields h⟩

/-- Of fields with different names a look-up finds the one of that name. -/
theorem find?_of_distinct {α : Type} {fields : List (String × α)} (h : Distinct fields)
    {field : String × α} (hmem : field ∈ fields) :
    fields.find? (fun other => other.1 = field.1) = some field := by
  induction fields with
  | nil => cases hmem
  | cons first fields ih =>
    obtain ⟨hnew, hdistinct⟩ := List.nodup_cons.mp h
    rcases List.mem_cons.mp hmem with rfl | hlater
    · exact List.find?_cons_of_pos (by simp)
    · have hother : first.1 ≠ field.1 := fun hsame =>
        hnew (List.mem_map.mpr ⟨field, hlater, hsame.symm⟩)
      rw [List.find?_cons_of_neg (by simpa using hother)]
      exact ih hdistinct hlater

end Sequencer.Json
