import Stencil.Program.Syntax
import Stencil.Table

/-!
Programs of nested blocks and the slots that a template keeps them in. A slot
is filled the first time that its block is requested without data of its own,
and keeps that program from then on. A request with truthy data always gets a
new program, which no slot keeps.

Renders work on the slots as a finite map, a table of those that are filled under
the numbers of their blocks. The engine keeps a row of them: it has a place for
every number up to the greatest one filled, it grows when a number beyond its end is
to be filled, and the places in between are empty. Rows are given here beside the
tables. A row answers every request as the table does that keeps the same programs,
and keeps the same programs as the table after it.
-/

namespace Stencil

/-- The program of a block: what it renders, the data it was made with and the
contexts of the levels around it. Two programs are one when their identities
are equal. -/
structure Program where
  identity : Nat
  body : List Node
  data : Option Value := none
  depths : List Value := []

namespace Program

/-- The data that a run sees: truthy data given now goes before the data that
the program was made with. -/
def dataFor (program : Program) (data : Option Value) : Option Value :=
  (data.filter Value.isTruthy).or program.data

end Program

/-- The programs that a template keeps, by the number of their block. -/
abbrev Slots := Table Program

namespace Slots

/-- What a request for a program gives. -/
structure Answer where
  program : Program
  slots : Slots
  /-- The identity for the next new program. -/
  fresh : Nat
  filled : Bool

/-- The program of a block; new programs take their identity from `fresh`. -/
def request (slots : Slots) (fresh index : Nat) (body : List Node) (data : Option Value) :
    Answer :=
  match data.filter Value.isTruthy with
  | some data => ⟨⟨fresh, body, some data, []⟩, slots, fresh + 1, false⟩
  | none =>
    match slots.get? index with
    | some program => ⟨program, slots, fresh, false⟩
    | none =>
      let program : Program := ⟨fresh, body, none, []⟩
      ⟨program, slots.set index program, fresh + 1, true⟩

end Slots

/-- Slots in a row, filled or empty. -/
structure Row where
  places : List (Option Program) := []

namespace Row

/-- The program at a number; there is none at an empty place or beyond the end. -/
def get? (row : Row) (index : Nat) : Option Program := row.places[index]?.join

/-- How many places are filled. -/
def size (row : Row) : Nat := row.places.countP Option.isSome

/-- The row with a place for a number; places that it gets are empty. -/
def grow (row : Row) (index : Nat) : Row :=
  if row.places.length ≤ index then
    ⟨row.places ++ List.replicate (index + 1 - row.places.length) none⟩
  else row

/-- The row with a program at a place that it has. -/
def put (row : Row) (index : Nat) (program : Program) : Row :=
  ⟨row.places.set index (some program)⟩

/-- What a request for a program gives. -/
structure Answer where
  program : Program
  row : Row
  /-- The identity for the next new program. -/
  fresh : Nat
  filled : Bool

/-- The program of a block; new programs take their identity from `fresh`. -/
def request (row : Row) (fresh index : Nat) (body : List Node) (data : Option Value) : Answer :=
  match data.filter Value.isTruthy with
  | some data => ⟨⟨fresh, body, some data, []⟩, row, fresh + 1, false⟩
  | none =>
    match row.get? index with
    | some program => ⟨program, row, fresh, false⟩
    | none =>
      let grown := row.grow index
      -- The place is looked at again before it is filled.
      match grown.get? index with
      | some program => ⟨program, grown, fresh, false⟩
      | none =>
        let program : Program := ⟨fresh, body, none, []⟩
        ⟨program, grown.put index program, fresh + 1, true⟩

section

variable {row : Row} {index : Nat}

theorem lt_length_grow (row : Row) (index : Nat) : index < (row.grow index).places.length := by
  unfold grow
  split
  · rw [List.length_append, List.length_replicate]
    omega
  · omega

theorem get?_grow (row : Row) (index other : Nat) :
    (row.grow index).get? other = row.get? other := by
  unfold grow
  split
  · unfold get?
    by_cases hother : other < row.places.length
    · rw [List.getElem?_append_left hother]
    · -- Beyond the end there is an empty place or none at all.
      have hend : row.places.length ≤ other := Nat.le_of_not_lt hother
      rw [List.getElem?_append_right hend, List.getElem?_replicate, List.getElem?_eq_none hend]
      split <;> rfl
  · rfl

theorem size_grow (row : Row) (index : Nat) : (row.grow index).size = row.size := by
  unfold grow
  split
  · simp [size, List.countP_append, List.countP_replicate]
  · rfl

theorem get?_put_self (h : index < row.places.length) (program : Program) :
    (row.put index program).get? index = some program := by
  simp [get?, put, h]

theorem get?_put_ne {other : Nat} (h : other ≠ index) (program : Program) :
    (row.put index program).get? other = row.get? other := by
  unfold get? put
  rw [List.getElem?_set_ne h.symm]

theorem size_put (h : index < row.places.length) (hempty : row.get? index = none)
    (program : Program) : (row.put index program).size = row.size + 1 := by
  have hplace : row.places[index] = none := by
    simpa [get?, h] using hempty
  unfold size put
  rw [List.countP_set h, hplace]
  rfl

end

/-- The row and the slots keep the same programs. -/
structure Keeps (row : Row) (slots : Slots) : Prop where
  get?_eq : ∀ index, row.get? index = slots.get? index
  size_eq : row.size = slots.size

namespace Keeps

theorem empty : Keeps {} .empty where
  get?_eq _ := rfl
  size_eq := rfl

variable {row : Row} {slots : Slots} {index : Nat}

theorem grow (h : row.Keeps slots) (index : Nat) : (row.grow index).Keeps slots where
  get?_eq other := (get?_grow row index other).trans (h.get?_eq other)
  size_eq := (size_grow row index).trans h.size_eq

/-- An empty slot is filled. -/
theorem put (h : row.Keeps slots) (hlength : index < row.places.length)
    (hempty : slots.get? index = none) (program : Program) :
    (row.put index program).Keeps (slots.set index program) where
  get?_eq other := by
    by_cases hother : other = index
    · rw [hother, get?_put_self hlength, Table.get?_set_self]
    · rw [get?_put_ne hother, Table.get?_set_ne _ _ hother, h.get?_eq]
  size_eq := by
    rw [size_put hlength ((h.get?_eq index).trans hempty), Table.size_set_new hempty, h.size_eq]

/-- A row answers a request as the slots do, and keeps the same programs after
it. -/
theorem request (h : row.Keeps slots) (fresh index : Nat) (body : List Node)
    (data : Option Value) :
    let answer := row.request fresh index body data
    let expected := slots.request fresh index body data
    answer.program = expected.program ∧ answer.fresh = expected.fresh ∧
      answer.filled = expected.filled ∧ answer.row.Keeps expected.slots := by
  have hfirst : row.get? index = slots.get? index := h.get?_eq index
  have hagain : (row.grow index).get? index = slots.get? index := (h.grow index).get?_eq index
  simp only [Row.request, Slots.request, hfirst, hagain]
  cases data.filter Value.isTruthy with
  | some data => exact ⟨rfl, rfl, rfl, h⟩
  | none =>
      cases hkept : slots.get? index with
      | some program => exact ⟨rfl, rfl, rfl, h⟩
      | none =>
          exact ⟨rfl, rfl, rfl, (h.grow index).put (lt_length_grow row index) hkept _⟩

end Keeps

end Row

end Stencil
