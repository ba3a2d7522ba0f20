/-!
Fields in order. A list of fields is ordered when its keys are strictly
ascending; then each key has one field. Strings compare by code point, which is
also the order of their UTF-8 bytes. Inserting keeps the order and changes the
value of no other key.
-/

namespace Stencil

variable {α : Type}

/-- Fields in ascending order of keys with this one added; a field with the
same key is replaced. -/
def insertField (key : String) (value : α) : List (String × α) → List (String × α)
  | [] => [(key, value)]
  | (k, v) :: rest =>
    if key < k then (key, value) :: (k, v) :: rest
    else if key = k then (key, value) :: rest
    else (k, v) :: insertField key value rest

/-- Fields in ascending order of keys; the last value given for a key stays. -/
def orderFields (fields : List (String × α)) : List (String × α) :=
  fields.foldl (fun ordered (key, value) => insertField key value ordered) []

def field? (key : String) : List (String × α) → Option α
  | [] => none
  | (k, v) :: rest => if k = key then some v else field? key rest

/-- Whether the keys are strictly ascending. -/
def Ordered (fields : List (String × α)) : Prop :=
  fields.Pairwise fun a b => a.1 < b.1

theorem ordered_nil : Ordered ([] : List (String × α)) := .nil

theorem mem_insertField {key : String} {value : α} {fields : List (String × α)}
    {entry : String × α} (h : entry ∈ insertField key value fields) :
    entry = (key, value) ∨ entry ∈ fields := by
  induction fields with
  | nil => simpa [insertField] using h
  | cons first rest ih =>
      simp only [insertField] at h
      split at h
      · simpa using h
      · split at h
        · rcases List.mem_cons.mp h with h | h
          · exact .inl h
          · exact .inr (List.mem_cons_of_mem _ h)
        · rcases List.mem_cons.mp h with h | h
          · exact .inr (h ▸ List.mem_cons_self)
          · exact (ih h).imp id (List.mem_cons_of_mem _)

theorem ordered_insertField {key : String} {value : α} {fields : List (String × α)}
    (h : Ordered fields) : Ordered (insertField key value fields) := by
  induction fields with
  | nil => exact .cons (by simp) .nil
  | cons first rest ih =>
      obtain ⟨hfirst, hrest⟩ := List.pairwise_cons.mp h
      simp only [insertField]
      split
      case isTrue hlt =>
        refine .cons ?_ h
        intro entry member
        rcases List.mem_cons.mp member with rfl | member
        · exact hlt
        · exact String.lt_trans hlt (hfirst entry member)
      case isFalse hnotlt =>
        split
        case isTrue heq =>
          refine .cons ?_ hrest
          intro entry member
          exact heq ▸ hfirst entry member
        case isFalse hne =>
          have hgreater : first.1 < key := by
            have := String.not_lt.mp hnotlt
            grind
          refine .cons ?_ (ih hrest)
          intro entry member
          rcases mem_insertField member with rfl | member
          · exact hgreater
          · exact hfirst entry member

theorem ordered_orderFields (fields : List (String × α)) : Ordered (orderFields fields) := by
  suffices h : ∀ (more start : List (String × α)), Ordered start →
      Ordered (more.foldl (fun ordered (key, value) => insertField key value ordered) start) from
    h fields [] ordered_nil
  intro more
  induction more with
  | nil => exact fun _ h => h
  | cons entry rest ih => exact fun start h => ih _ (ordered_insertField h)

theorem field?_insertField_self (key : String) (value : α) (fields : List (String × α)) :
    field? key (insertField key value fields) = some value := by
  induction fields with
  | nil => simp [insertField, field?]
  | cons first rest ih =>
      simp only [insertField]
      split
      · simp [field?]
      · split
        · simp [field?]
        · rename_i hne
          simp [field?, Ne.symm hne, ih]

theorem field?_insertField_ne {key other : String} (value : α) (fields : List (String × α))
    (h : other ≠ key) : field? other (insertField key value fields) = field? other fields := by
  induction fields with
  | nil => simp [insertField, field?, Ne.symm h]
  | cons first rest ih =>
      simp only [insertField]
      split
      · simp [field?, Ne.symm h]
      · split
        · rename_i heq
          simp [field?, ← heq, Ne.symm h]
        · simp [field?, ih]

theorem mem_of_field? {key : String} {value : α} {fields : List (String × α)}
    (h : field? key fields = some value) : (key, value) ∈ fields := by
  induction fields with
  | nil => cases h
  | cons first rest ih =>
      simp only [field?] at h
      split at h
      case isTrue hkey =>
        obtain rfl := Option.some.inj h
        rw [← hkey]
        exact List.mem_cons_self
      case isFalse => exact List.mem_cons_of_mem _ (ih h)

theorem isSome_field?_iff {key : String} {fields : List (String × α)} :
    (field? key fields).isSome = true ↔ key ∈ fields.map Prod.fst := by
  induction fields with
  | nil => simp [field?]
  | cons first rest ih =>
      by_cases hkey : first.1 = key
      · simp [field?, hkey]
      · simp [field?, hkey, Ne.symm hkey, ih]

/-- Where a key is inserted depends on nothing but the keys. -/
theorem keys_insertField_eq {β : Type} (key : String) (value : α) (other : β)
    {fields : List (String × α)} {others : List (String × β)}
    (h : fields.map Prod.fst = others.map Prod.fst) :
    (insertField key value fields).map Prod.fst = (insertField key other others).map Prod.fst := by
  induction fields generalizing others with
  | nil =>
      obtain rfl : others = [] := List.map_eq_nil_iff.mp h.symm
      rfl
  | cons first rest ih =>
      cases others with
      | nil => cases h
      | cons second rest' =>
          obtain ⟨hfirst, hrest⟩ := List.cons.inj h
          simp only [insertField, hfirst]
          split
          · simp only [List.map_cons, hrest]
          · split
            · simp only [List.map_cons, hrest]
            · simp only [List.map_cons, ih hrest]

/-- Replacing a field leaves the keys as they are. -/
theorem keys_insertField {key : String} (value : α) {fields : List (String × α)}
    (hordered : Ordered fields) (h : (field? key fields).isSome) :
    (insertField key value fields).map Prod.fst = fields.map Prod.fst := by
  induction fields with
  | nil => cases h
  | cons first rest ih =>
      obtain ⟨hfirst, hrest⟩ := List.pairwise_cons.mp hordered
      simp only [insertField]
      split
      case isTrue hlt =>
        obtain ⟨found, hfound⟩ := Option.isSome_iff_exists.mp h
        rcases List.mem_cons.mp (mem_of_field? hfound) with hhead | hlater
        · rw [← hhead] at hlt
          exact absurd hlt (String.lt_irrefl key)
        · exact absurd (String.lt_trans hlt (hfirst _ hlater)) (String.lt_irrefl key)
      case isFalse =>
        split
        case isTrue heq => rw [heq, List.map_cons, List.map_cons]
        case isFalse hne =>
          have hlater : (field? key rest).isSome := by
            rw [field?, if_neg (Ne.symm hne)] at h
            exact h
          rw [List.map_cons, List.map_cons, ih hrest hlater]

end Stencil
