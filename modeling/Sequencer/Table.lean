/-!
# Tables — entries under keys, in the order of their first insertion
-/

namespace Sequencer

/-- Entries under keys. -/
structure Table (κ α : Type) where
  entries : List (κ × α) := []

namespace Table

variable {κ α : Type} [DecidableEq κ]

/-- The empty table. -/
def empty : Table κ α := {}

instance : Inhabited (Table κ α) := ⟨empty⟩

/-- The first entry under `key` in a list of entries. -/
def find? (key : κ) : List (κ × α) → Option α
  | [] => none
  | (k, a) :: rest => if k = key then some a else find? key rest

/-- The entry under `key`. -/
def get? (table : Table κ α) (key : κ) : Option α := find? key table.entries

/-- The entries with `a` under `key`, in its old place or at the end. -/
def put (key : κ) (a : α) : List (κ × α) → List (κ × α)
  | [] => [(key, a)]
  | (k, b) :: rest => if k = key then (key, a) :: rest else (k, b) :: put key a rest

/-- The table with `a` under `key`. -/
def set (table : Table κ α) (key : κ) (a : α) : Table κ α := ⟨put key a table.entries⟩

/-- The table with the entry under `key` changed, if there is one. -/
def modify (table : Table κ α) (key : κ) (f : α → α) : Table κ α :=
  match table.get? key with
  | some a => table.set key (f a)
  | none => table

/-- The table without `key`. -/
def erase (table : Table κ α) (key : κ) : Table κ α :=
  ⟨table.entries.filter fun entry => entry.1 ≠ key⟩

/-- Whether there is an entry under `key`. -/
def contains (table : Table κ α) (key : κ) : Bool := (table.get? key).isSome

/-- The entries in order. -/
def values (table : Table κ α) : List α := table.entries.map (·.2)

/-! ## What the operations do to a look-up -/

theorem find?_put (key other : κ) (a : α) (entries : List (κ × α)) :
    find? other (put key a entries) = if key = other then some a else find? other entries := by
  induction entries with
  | nil => simp [put, find?]
  | cons entry rest ih =>
    obtain ⟨k, b⟩ := entry
    by_cases h : k = key
    · subst h
      simp only [put, ↓reduceIte, find?]
      split <;> rfl
    · simp only [put, h, ↓reduceIte, find?, ih]
      by_cases hk : k = other
      · subst hk
        simp [Ne.symm h]
      · simp [hk]

@[simp] theorem get?_set (table : Table κ α) (key other : κ) (a : α) :
    (table.set key a).get? other = if key = other then some a else table.get? other :=
  find?_put key other a table.entries

end Table

end Sequencer
