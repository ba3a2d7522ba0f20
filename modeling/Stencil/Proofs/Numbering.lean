import Stencil.Host
import Stencil.Proofs.Requesting
import Stencil.Proofs.Upkeep

/-!
The numbers of templates and programs. A number is given out once, so whatever a
store holds has a number below the next one. A render gives out numbers and
never takes one back.
-/

namespace Stencil

namespace Store

/-- The numbers of a template and of its empty program were given out. -/
structure Numbers (store : Store) (template : Template) : Prop where
  identity : template.identity < store.freshTemplate
  noop : template.noop.identity < store.freshProgram

/-- The numbers of all that a store holds were given out, and those of the
templates of its host. No slots are kept for a template that is still to be
made. -/
structure Numbered (templates : List Template) (store : Store) : Prop where
  templates : ∀ template ∈ templates, store.Numbers template
  partials : ∀ registry name template,
    (store.partialsOf registry).get? name = some (.compiled template) → store.Numbers template
  programs : ∀ identity index program, store.kept? identity index = some program →
    program.identity < store.freshProgram
  vacant : ∀ identity, store.freshTemplate ≤ identity → store.slots.get? identity = none

variable {templates : List Template} {store after : Store} {frame : Frame} {name : String}

theorem Numbers.grow {template : Template} (h : store.Numbers template)
    (htemplate : store.freshTemplate ≤ after.freshTemplate)
    (hprogram : store.freshProgram ≤ after.freshProgram) : after.Numbers template where
  identity := Nat.lt_of_lt_of_le h.identity htemplate
  noop := Nat.lt_of_lt_of_le h.noop hprogram

theorem Numbers.same {template : Template} (h : store.Numbers template)
    (htemplate : after.freshTemplate = store.freshTemplate)
    (hprogram : after.freshProgram = store.freshProgram) : after.Numbers template :=
  h.grow (Nat.le_of_eq htemplate.symm) (Nat.le_of_eq hprogram.symm)

theorem newTemplate_numbers (store : Store) (environment : Environment) (spec : Spec) :
    (store.newTemplate environment spec).2.Numbers (store.newTemplate environment spec).1 :=
  ⟨Nat.lt_succ_self _, Nat.lt_succ_self _⟩

namespace Numbered

/-- What gives out numbers and holds nothing more is free. -/
theorem congr (h : store.Numbered templates) (hpartials : after.partials = store.partials)
    (hslots : after.slots = store.slots) (htemplate : store.freshTemplate ≤ after.freshTemplate)
    (hprogram : store.freshProgram ≤ after.freshProgram) : after.Numbered templates where
  templates template member := (h.templates template member).grow htemplate hprogram
  partials := by
    unfold partialsOf
    rw [hpartials]
    exact fun registry name template hfound =>
      (h.partials registry name template hfound).grow htemplate hprogram
  programs := by
    unfold kept?
    rw [hslots]
    exact fun identity index program hkept =>
      Nat.lt_of_lt_of_le (h.programs identity index program hkept) hprogram
  vacant := by
    rw [hslots]
    exact fun identity habove => h.vacant identity (Nat.le_trans htemplate habove)

theorem empty : Store.empty.Numbered [] where
  templates := by simp
  partials := by
    intro registry name template hfound
    cases hfound
  programs := by
    intro identity index program hkept
    cases hkept
  vacant _ _ := rfl

theorem newTemplate (h : store.Numbered templates) (environment : Environment) (spec : Spec) :
    (store.newTemplate environment spec).2.Numbered templates :=
  h.congr rfl rfl (Nat.le_succ _) (Nat.le_succ _)

theorem openPartials (h : store.Numbered templates) : store.newPartials.2.Numbered templates where
  templates template member := (h.templates template member).same rfl rfl
  partials := by
    intro registry name template hfound
    rw [get?_newPartials] at hfound
    split at hfound
    · cases hfound
    · exact (h.partials registry name template hfound).same rfl rfl
  programs := h.programs
  vacant := h.vacant

theorem registerPartial {entry : Partial} (h : store.Numbered templates)
    (hentry : ∀ template, entry = .compiled template → store.Numbers template) (registry : Nat)
    (name : String) : (store.registerPartial registry name entry).Numbered templates where
  templates template member := (h.templates template member).same rfl rfl
  partials := by
    intro other name' template hfound
    rw [get?_registerPartial] at hfound
    split at hfound
    · exact (hentry template (Option.some.inj hfound)).same rfl rfl
    · exact (h.partials other name' template hfound).same rfl rfl
  programs := h.programs
  vacant := h.vacant

theorem provided (h : store.Numbered templates) (hprovided : store.Provided after)
    (hfresh : store.freshProgram ≤ after.freshProgram)
    (hprograms : ∀ identity index program, after.kept? identity index = some program →
      program.identity < after.freshProgram)
    (hvacant : ∀ identity, after.freshTemplate ≤ identity → after.slots.get? identity = none) :
    after.Numbered templates := by
  obtain ⟨_, _, _, rfl⟩ := hprovided
  exact {
    templates := fun template member => (h.templates template member).grow (Nat.le_refl _) hfresh
    partials := fun registry name template hfound =>
      (h.partials registry name template hfound).grow (Nat.le_refl _) hfresh
    programs := hprograms
    vacant := hvacant }

/-- A template that was made asks for a program. -/
theorem requests {template : Template} (h : store.Numbered templates)
    (hmade : template.identity < store.freshTemplate) (index : Nat) (body : List Node)
    (data : Option Value) :
    (Render.requestProgram template index body data store).2.Numbered templates := by
  obtain ⟨_, after, hrun, hrequests⟩ := template.requests_program index body data store
  obtain ⟨_, hexact⟩ := template.requestProgram_run index body data store
  have hvacant : ∀ identity, after.freshTemplate ≤ identity →
      after.slots.get? identity = none := by
    obtain rfl := congrArg Prod.snd (hrun.symm.trans hexact)
    intro identity habove
    have hother : identity ≠ template.identity := by
      have : store.freshTemplate ≤ identity := habove
      omega
    exact (Table.get?_set_ne _ _ hother).trans (h.vacant identity habove)
  rw [hrun]
  show after.Numbered templates
  cases hrequests with
  | own given provided kept fresh =>
      refine h.provided provided (by omega) ?_ hvacant
      intro identity i other hkept
      have := h.programs identity i other (kept identity i ▸ hkept)
      omega
  | filled without found provided kept fresh =>
      refine h.provided provided (by omega) ?_ hvacant
      intro identity i other hkept
      have := h.programs identity i other (kept identity i ▸ hkept)
      omega
  | fills without found provided kept fresh =>
      refine h.provided provided (by omega) ?_ hvacant
      intro identity i other hkept
      rw [kept identity i] at hkept
      split at hkept
      · obtain rfl := Option.some.inj hkept
        simp [fresh]
      · have := h.programs identity i other hkept
        omega

/-- However a partial is found, no number is taken back, and its template has
one that was given out. -/
theorem finds {outcome : Outcome Template} (h : store.Numbered templates)
    (hfinds : frame.Finds {} name store (outcome, after)) :
    store.freshTemplate ≤ after.freshTemplate ∧ after.Numbered templates ∧
      ∀ template, outcome = .done template → after.Numbers template := by
  cases hfinds with
  | missing => exact ⟨Nat.le_refl _, h, fun _ hdone => nomatch hdone⟩
  | compiled found =>
      refine ⟨Nat.le_refl _, h, ?_⟩
      rintro _ ⟨⟩
      exact h.partials _ name _ found
  | unavailable => exact ⟨Nat.le_refl _, h, fun _ hdone => nomatch hdone⟩
  | rejected =>
      exact ⟨Nat.le_refl _, h.congr rfl rfl (Nat.le_refl _) (Nat.le_refl _),
        fun _ hdone => nomatch hdone⟩
  | @accepted source compiler spec template made found given answer makes =>
      have hmade : store.freshTemplate ≤ made.freshTemplate ∧ made.Numbered templates ∧
          made.Numbers template := by
        cases makes
        exact ⟨Nat.le_succ _, h.congr rfl rfl (Nat.le_succ _) (Nat.le_succ _),
          newTemplate_numbers _ _ _⟩
      rw [settled_kept]
      refine ⟨hmade.1, hmade.2.1.registerPartial ?_ _ _, ?_⟩
      · rintro _ ⟨⟩
        exact hmade.2.2
      · rintro _ ⟨⟩
        exact hmade.2.2.same rfl rfl

/-- No part of a render uses a number that was not given out. The worlds are the
numbers of templates below which all were given out. -/
def upkeep (templates : List Template) : Upkeep Nat where
  holds fresh store := store.Numbered templates ∧ fresh ≤ store.freshTemplate
  frames fresh frame := frame.template.identity < fresh
  opens fresh frame := frame.template.identity < fresh
  grows := (· ≤ ·)
  grows_refl := Nat.le_refl
  grows_trans := Nat.le_trans
  frames_grow hgrown hframe := Nat.lt_of_lt_of_le hframe hgrown

theorem upkeep_lawful (templates : List Template) : (upkeep templates).Lawful where
  quiet := by
    rintro fresh store _ ⟨h, hfresh⟩ ⟨_, _, _, _, rfl⟩
    exact ⟨h.congr rfl rfl (Nat.le_refl _) (Nat.le_refl _), hfresh⟩
  requests := by
    rintro fresh frame store hframe ⟨h, hfresh⟩ index body data
    have hmade := h.requests (Nat.lt_of_lt_of_le hframe hfresh) index body data
    obtain ⟨_, hrun⟩ := frame.template.requestProgram_run index body data store
    rw [hrun] at hmade ⊢
    exact ⟨hmade, hfresh⟩
  makes h := ⟨h.1.congr rfl rfl (Nat.le_refl _) (Nat.le_succ _), h.2⟩
  finds := by
    rintro fresh frame store name outcome after _ ⟨h, hfresh⟩ hfinds
    obtain ⟨hgrown, hafter, hdone⟩ := h.finds hfinds
    exact ⟨after.freshTemplate, Nat.le_trans hfresh hgrown, ⟨hafter, Nat.le_refl _⟩,
      fun template houtcome => (hdone template houtcome).identity⟩
  enter := by
    rintro fresh frame store hframe ⟨h, hfresh⟩ _
    refine ⟨fresh, hframe, ⟨h.congr rfl rfl (Nat.le_refl _) (Nat.le_refl _), hfresh⟩, ?_⟩
    rintro last after hgrown ⟨hafter, hlast⟩
    exact ⟨last, hgrown, hafter.congr rfl rfl (Nat.le_refl _) (Nat.le_refl _), hlast⟩

end Numbered

end Store

namespace Host

/-- The numbers of all that a host has to work with were given out. -/
def Numbered (host : Host) : Prop := host.store.Numbered host.templates

variable {host : Host}

theorem Numbered.step (h : host.Numbered) (levels : Nat) (operation : Operation) :
    (host.step {} levels operation).2.Numbered := by
  unfold Numbered at h ⊢
  cases operation with
  | openHelpers registry => exact h.congr rfl rfl (Nat.le_refl _) (Nat.le_refl _)
  | openPartials => exact h.openPartials
  | make environment spec =>
      have hmade := h.newTemplate environment spec
      refine { hmade with templates := ?_ }
      intro template member
      rcases List.mem_append.mp member with hold | hnew
      · exact hmade.templates template hold
      · obtain rfl := List.mem_singleton.mp hnew
        exact host.store.newTemplate_numbers environment spec
  | registerHelper registry name helper => exact h.congr rfl rfl (Nat.le_refl _) (Nat.le_refl _)
  | registerSource registry name source =>
      refine h.registerPartial ?_ registry name
      rintro _ ⟨⟩
  | registerTemplate registry name index =>
      cases hfound : host.templates[index]? with
      | none => simpa only [Host.step, hfound] using h
      | some template =>
          simp only [Host.step, hfound]
          refine h.registerPartial ?_ registry name
          rintro _ ⟨⟩
          exact h.templates template (List.mem_of_getElem? hfound)
  | render index context helpers partials data =>
      cases hfound : host.templates[index]? with
      | none => simpa only [Host.step, hfound] using h
      | some template =>
          simp only [Host.step, hfound]
          have hlawful := Store.Numbered.upkeep_lawful host.templates
          have hmade := h.templates template (List.mem_of_getElem? hfound)
          obtain ⟨_, _, hafter, _⟩ :=
            hlawful.run_holds levels hmade.identity ⟨h, Nat.le_refl _⟩ context
          exact hafter

theorem empty_numbered : empty.Numbered := Store.Numbered.empty

/-- A host that did something, one thing after another. -/
inductive Reached : Host → Prop
  | empty : Reached .empty
  | step {host : Host} (before : Reached host) (levels : Nat) (operation : Operation) :
      Reached (host.step {} levels operation).2

/-- Whatever a host does, numbers are given out before they are used. -/
theorem Reached.numbered (h : host.Reached) : host.Numbered := by
  induction h with
  | empty => exact empty_numbered
  | step before levels operation ih => exact ih.step levels operation

theorem Reached.run (h : host.Reached) (levels : Nat) (operations : List Operation) :
    (host.run {} levels operations).2.Reached := by
  induction operations generalizing host with
  | nil => exact h
  | cons operation rest ih => exact ih (h.step levels operation)

end Host

end Stencil
