/-!
Tables. A table keeps one entry at each number that was given one. Setting an
entry leaves all other entries as they are, and nothing is ever taken out.
-/

namespace Stencil

/-- Entries by number, each number at most once. -/
structure Table (α : Type) where
  entries : List (Nat × α) := []

namespace Table

variable {α : Type}

def empty : Table α := ⟨[]⟩

instance : Inhabited (Table α) := ⟨empty⟩

/-- The entry at a number. -/
def entryAt (index : Nat) : List (Nat × α) → Option α
  | [] => none
  | (i, a) :: rest => if index = i then some a else entryAt index rest

def get? (table : Table α) (index : Nat) : Option α :=
  entryAt index table.entries

/-- The entries with one entry set; a new number goes to the end. -/
def setEntry (index : Nat) (value : α) : List (Nat × α) → List (Nat × α)
  | [] => [(index, value)]
  | (i, a) :: rest =>
    if index = i then (index, value) :: rest else (i, a) :: setEntry index value rest

def set (table : Table α) (index : Nat) (value : α) : Table α :=
  ⟨setEntry index value table.entries⟩

/-- How many numbers have an entry. -/
def size (table : Table α) : Nat := table.entries.length

theorem entryAt_setEntry_self (index : Nat) (value : α) (entries : List (Nat × α)) :
    entryAt index (setEntry index value entries) = some value := by
  induction entries with
  | nil => simp [setEntry, entryAt]
  | cons entry rest ih =>
    by_cases h : index = entry.1
    · simp [setEntry, entryAt, h]
    · simp [setEntry, entryAt, h, ih]

theorem entryAt_setEntry_ne {index other : Nat} (value : α) (entries : List (Nat × α))
    (h : other ≠ index) :
    entryAt other (setEntry index value entries) = entryAt other entries := by
  induction entries with
  | nil => simp [setEntry, entryAt, h]
  | cons entry rest ih =>
    by_cases hi : index = entry.1
    · simp [setEntry, entryAt, ← hi, h]
    · simp [setEntry, entryAt, hi, ih]

/-- A number that has no entry yet gets one at the end. -/
theorem setEntry_of_entryAt_none {index : Nat} (value : α) {entries : List (Nat × α)}
    (h : entryAt index entries = none) :
    setEntry index value entries = entries ++ [(index, value)] := by
  induction entries with
  | nil => rfl
  | cons entry rest ih =>
    by_cases hi : index = entry.1
    · simp [entryAt, hi] at h
    · simp only [entryAt, hi, if_false] at h
      simp [setEntry, hi, ih h]

theorem isSome_entryAt_iff {index : Nat} {entries : List (Nat × α)} :
    (entryAt index entries).isSome = true ↔ index ∈ entries.map Prod.fst := by
  induction entries with
  | nil => simp [entryAt]
  | cons entry rest ih =>
    by_cases hi : index = entry.1
    · simp [entryAt, hi]
    · simp [entryAt, hi, ih]

@[simp]
theorem get?_set_self (table : Table α) (index : Nat) (value : α) :
    (table.set index value).get? index = some value :=
  entryAt_setEntry_self index value table.entries

theorem get?_set_ne (table : Table α) {index other : Nat} (value : α) (h : other ≠ index) :
    (table.set index value).get? other = table.get? other :=
  entryAt_setEntry_ne value table.entries h

theorem size_set_new {table : Table α} {index : Nat} (hnew : table.get? index = none) (value : α) :
    (table.set index value).size = table.size + 1 := by
  unfold size set
  rw [setEntry_of_entryAt_none value hnew, List.length_append, List.length_singleton]

end Table

end Stencil
