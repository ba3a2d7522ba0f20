import Stencil.Render.Nodes

/-!
How the program of a numbered block is provided. A request ends in one of three
ways: truthy data gives a program that no slot keeps, a filled slot gives the
program in it, and an empty slot is filled with a new program. No other slot
changes, and nothing else that a program can see.
-/

namespace Stencil

namespace Store

/-- The program that the template of an identity keeps under a number. -/
def kept? (store : Store) (identity index : Nat) : Option Program :=
  ((store.slots.get? identity).getD .empty).get? index

/-- The store after programs were made: only slots were filled, new identities
given and notes made. -/
def Provided (store after : Store) : Prop :=
  ∃ slots fresh trace, after = { store with slots, freshProgram := fresh, trace }

theorem kept?_set (store : Store) (identity other index : Nat) (slots : Slots) (fresh : Nat) :
    ({ store with slots := store.slots.set identity slots, freshProgram := fresh }).kept?
      other index = if other = identity then slots.get? index else store.kept? other index := by
  unfold kept?
  split
  case isTrue h => rw [h, Table.get?_set_self, Option.getD_some]
  case isFalse h => rw [Table.get?_set_ne _ _ h]

theorem kept?_refill (store : Store) (template : Template) (fresh identity i : Nat) :
    ({ store with
      slots := store.slots.set template.identity (store.slotsOf template)
      freshProgram := fresh }).kept? identity i = store.kept? identity i := by
  rw [kept?_set]
  split
  case isTrue h => rw [h]; rfl
  case isFalse => rfl

theorem kept?_fill (store : Store) (template : Template) (index : Nat) (program : Program)
    (fresh identity i : Nat) :
    ({ store with
      slots := store.slots.set template.identity ((store.slotsOf template).set index program)
      freshProgram := fresh }).kept? identity i =
        if identity = template.identity ∧ i = index then some program
        else store.kept? identity i := by
  rw [kept?_set]
  by_cases hidentity : identity = template.identity
  · rw [if_pos hidentity, hidentity]
    by_cases hindex : i = index
    · rw [hindex, Table.get?_set_self, if_pos ⟨rfl, rfl⟩]
    · rw [Table.get?_set_ne _ _ hindex, if_neg fun h => hindex h.2]
      rfl
  · rw [if_neg hidentity, if_neg fun h => hidentity h.1]

end Store

/-- The ways in which the program of a block is provided. -/
inductive Template.Requests (template : Template) (index : Nat) (body : List Node)
    (data : Option Value) (store : Store) : Program → Store → Prop
  | own {d : Value} {after : Store} (given : data.filter Value.isTruthy = some d)
      (provided : store.Provided after)
      (kept : ∀ identity i, after.kept? identity i = store.kept? identity i)
      (fresh : after.freshProgram = store.freshProgram + 1) :
      Requests template index body data store ⟨store.freshProgram, body, some d, []⟩ after
  | filled {program : Program} {after : Store} (without : data.filter Value.isTruthy = none)
      (found : store.kept? template.identity index = some program)
      (provided : store.Provided after)
      (kept : ∀ identity i, after.kept? identity i = store.kept? identity i)
      (fresh : after.freshProgram = store.freshProgram) :
      Requests template index body data store program after
  | fills {after : Store} (without : data.filter Value.isTruthy = none)
      (found : store.kept? template.identity index = none) (provided : store.Provided after)
      (kept : ∀ identity i, after.kept? identity i =
        if identity = template.identity ∧ i = index then
          some ⟨store.freshProgram, body, none, []⟩
        else store.kept? identity i)
      (fresh : after.freshProgram = store.freshProgram + 1) :
      Requests template index body data store ⟨store.freshProgram, body, none, []⟩ after

/-- However a program is provided, nothing is touched but what is kept. -/
theorem Template.Requests.provided {template : Template} {index : Nat} {body : List Node}
    {data : Option Value} {store after : Store} {program : Program}
    (h : template.Requests index body data store program after) : store.Provided after := by
  cases h with
  | own given provided kept fresh => exact provided
  | filled without found provided kept fresh => exact provided
  | fills without found provided kept fresh => exact provided

/-- No identity that was given to a program is given again. -/
theorem Slots.request_fresh (slots : Slots) (fresh index : Nat) (body : List Node)
    (data : Option Value) : fresh ≤ (slots.request fresh index body data).fresh := by
  unfold Slots.request
  split
  · simp
  · split <;> simp

/-- Nothing but the slots of the template and the next identity decides what
is provided. -/
theorem Template.requestProgram_run (template : Template) (index : Nat) (body : List Node)
    (data : Option Value) (store : Store) :
    ∃ trace, Render.requestProgram template index body data store =
      (.done ((store.slotsOf template).request store.freshProgram index body data).program,
        { store with
          slots := store.slots.set template.identity
            ((store.slotsOf template).request store.freshProgram index body data).slots
          freshProgram :=
            ((store.slotsOf template).request store.freshProgram index body data).fresh
          trace }) := by
  simp only [Render.requestProgram, Render.bind_run, Render.look, Render.update]
  split
  · exact ⟨_, rfl⟩
  · exact ⟨_, rfl⟩

theorem Template.requests_program (template : Template) (index : Nat) (body : List Node)
    (data : Option Value) (store : Store) :
    ∃ program after,
      Render.requestProgram template index body data store = (.done program, after) ∧
      template.Requests index body data store program after := by
  cases hdata : data.filter Value.isTruthy with
  | some d =>
      refine ⟨_, _, ?_, .own hdata ⟨_, _, _, rfl⟩ (store.kept?_refill template _) rfl⟩
      simp only [Render.requestProgram, Render.bind_run, Render.look, Render.update,
        Slots.request, hdata]
      rfl
  | none =>
      cases hkept : store.kept? template.identity index with
      | some program =>
          have hslot : (store.slotsOf template).get? index = some program := hkept
          refine ⟨_, _, ?_,
            .filled hdata hkept ⟨_, _, _, rfl⟩ (store.kept?_refill template _) rfl⟩
          simp only [Render.requestProgram, Render.bind_run, Render.look, Render.update,
            Slots.request, hdata, hslot]
          rfl
      | none =>
          have hslot : (store.slotsOf template).get? index = none := hkept
          let filled := (store.slotsOf template).set index ⟨store.freshProgram, body, none, []⟩
          let after : Store := { store with
            slots := store.slots.set template.identity filled
            freshProgram := store.freshProgram + 1 }
          refine ⟨_, after.note (.programCached index), ?_, .fills hdata hkept ⟨_, _, _, rfl⟩
            (store.kept?_fill template index _ (store.freshProgram + 1)) rfl⟩
          simp only [Render.requestProgram, Render.bind_run, Render.look, Render.update,
            Slots.request, hdata, hslot]
          rfl

end Stencil
