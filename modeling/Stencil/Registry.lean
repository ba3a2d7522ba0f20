import Stencil.Fields

/-!
Registries. A registry gives a name to each of its entries. Registering adds an
entry or replaces the one of the same name; nothing is ever removed, and the
names are listed in ascending order.
-/

namespace Stencil

/-- Entries by name. -/
structure Registry (α : Type) where
  entries : List (String × α)
  ordered : Ordered entries

namespace Registry

variable {α : Type}

def empty : Registry α := ⟨[], ordered_nil⟩

instance : Inhabited (Registry α) := ⟨empty⟩

/-- Stores an entry under a name, in place of any previous one. -/
def register (registry : Registry α) (name : String) (entry : α) : Registry α :=
  ⟨insertField name entry registry.entries, ordered_insertField registry.ordered⟩

def get? (registry : Registry α) (name : String) : Option α :=
  field? name registry.entries

def contains (registry : Registry α) (name : String) : Bool :=
  (registry.get? name).isSome

/-- The registered names, in ascending order. -/
def names (registry : Registry α) : List String :=
  registry.entries.map Prod.fst

theorem get?_register_self (registry : Registry α) (name : String) (entry : α) :
    (registry.register name entry).get? name = some entry :=
  field?_insertField_self name entry registry.entries

theorem get?_register_ne (registry : Registry α) {name other : String} (entry : α)
    (h : other ≠ name) : (registry.register name entry).get? other = registry.get? other :=
  field?_insertField_ne entry registry.entries h

theorem get?_register (registry : Registry α) (name other : String) (entry : α) :
    (registry.register name entry).get? other =
      if other = name then some entry else registry.get? other := by
  split
  case isTrue h =>
    subst h
    exact registry.get?_register_self _ entry
  case isFalse h => exact registry.get?_register_ne entry h

theorem mem_names (registry : Registry α) (name : String) :
    name ∈ registry.names ↔ (registry.get? name).isSome = true :=
  isSome_field?_iff.symm

/-- Replacing an entry adds no name. -/
theorem names_register {registry : Registry α} {name : String}
    (h : registry.contains name = true) (entry : α) :
    (registry.register name entry).names = registry.names :=
  keys_insertField entry registry.ordered h

theorem names_pairwise (registry : Registry α) : registry.names.Pairwise (· < ·) :=
  List.pairwise_map.mpr registry.ordered

end Registry

end Stencil
