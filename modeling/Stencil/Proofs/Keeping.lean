import Stencil.Compiler
import Stencil.Proofs.Finding
import Stencil.Proofs.Requesting

/-!
Stores that keep to a licence. Rendering makes programs of what is written in
programs, and templates of what compilers give. So if all that a store holds is
allowed, and all that compilers may give, then whatever a render finds there or
adds to it is allowed as well.
-/

namespace Stencil

variable {licence : Licence} {environment : Environment}

/-- A compiler that gives only what is allowed. -/
def Environment.Offers (licence : Licence) (environment : Environment) : Prop :=
  ∀ source spec, environment.Compiles source spec → licence.AllowsSpec spec

/-- A template that renders only what is allowed, with partials that do. -/
structure Template.Keeps (licence : Licence) (template : Template) : Prop where
  spec : licence.AllowsSpec template.spec
  noop : licence.AllowsNodes template.noop.body
  offers : template.environment.Offers licence

/-- A store that holds only what is allowed. -/
structure Store.Keeps (licence : Licence) (store : Store) : Prop where
  helpers : ∀ registry name helper, (store.helpersOf registry).get? name = some helper →
    licence.AllowsHelper helper
  partials : ∀ registry name template,
    (store.partialsOf registry).get? name = some (.compiled template) → template.Keeps licence
  programs : ∀ identity index program, store.kept? identity index = some program →
    licence.AllowsNodes program.body

/-- All templates that are registered are bound to an environment. -/
def Store.Bound (environment : Environment) (store : Store) : Prop :=
  ∀ registry name template,
    (store.partialsOf registry).get? name = some (.compiled template) →
    template.environment = environment

/-- A helper that a frame finds is in some registry. -/
theorem Store.helper?_mem {store : Store} {frame : Frame} {name : String} {helper : Helper}
    (h : store.helper? frame name = some helper) :
    ∃ registry, (store.helpersOf registry).get? name = some helper := by
  unfold Store.helper? at h
  rcases Option.or_eq_some_iff.mp h with hoverride | ⟨_, hown⟩
  · obtain ⟨registry, _, hfound⟩ := Option.bind_eq_some_iff.mp hoverride
    exact ⟨registry, hfound⟩
  · exact ⟨_, hown⟩

/-- What the echo makes of a source shows its context and does nothing else. -/
theorem Compiler.echo_offers (hecho : environment.compiler = some .echo) :
    environment.Offers licence := by
  rintro source spec ⟨compiler, attempts, hcompiler, hanswer⟩
  obtain rfl := Option.some.inj (hecho.symm.trans hcompiler)
  simp only [echo] at hanswer
  split at hanswer
  · cases hanswer
  · cases hanswer
    exact ⟨trivial, trivial, trivial⟩

/-- What is read as a page asks for nothing that needs a licence. -/
theorem Compiler.pages_offers (hpages : environment.compiler = some .pages) :
    environment.Offers licence := by
  rintro source spec ⟨compiler, attempts, hcompiler, hanswer⟩
  obtain rfl := Option.some.inj (hpages.symm.trans hcompiler)
  simp only [pages] at hanswer
  split at hanswer
  · cases hanswer
    trivial
  · cases hanswer

namespace Store.Keeps

variable {store after : Store} {frame : Frame} {name : String}

theorem helper {helper : Helper} (h : store.Keeps licence)
    (hfound : store.helper? frame name = some helper) : licence.AllowsHelper helper := by
  obtain ⟨registry, hregistered⟩ := helper?_mem hfound
  exact h.helpers registry name helper hregistered

/-- What touches neither registries nor programs is free. -/
theorem congr (h : store.Keeps licence) (hhelpers : after.helpers = store.helpers)
    (hpartials : after.partials = store.partials) (hslots : after.slots = store.slots) :
    after.Keeps licence where
  helpers := by
    unfold helpersOf
    rw [hhelpers]
    exact h.helpers
  partials := by
    unfold partialsOf
    rw [hpartials]
    exact h.partials
  programs := by
    unfold kept?
    rw [hslots]
    exact h.programs

/-- A program that a template provides runs a body that is allowed. -/
theorem requests {template : Template} {index : Nat} {body : List Node} {data : Option Value}
    {program : Program} (h : store.Keeps licence) (hbody : licence.AllowsNodes body)
    (hrequests : template.Requests index body data store program after) :
    licence.AllowsNodes program.body ∧ after.Keeps licence := by
  have hprovided : (∀ identity i other, after.kept? identity i = some other →
      licence.AllowsNodes other.body) → after.Keeps licence := by
    intro hprograms
    obtain ⟨_, _, _, rfl⟩ := hrequests.provided
    exact ⟨h.helpers, h.partials, hprograms⟩
  cases hrequests with
  | own given provided kept fresh =>
      refine ⟨hbody, hprovided fun identity i other hkept => ?_⟩
      exact h.programs identity i other (kept identity i ▸ hkept)
  | filled without found provided kept fresh =>
      refine ⟨h.programs _ _ _ found, hprovided fun identity i other hkept => ?_⟩
      exact h.programs identity i other (kept identity i ▸ hkept)
  | fills without found provided kept fresh =>
      refine ⟨hbody, hprovided fun identity i other hkept => ?_⟩
      rw [kept identity i] at hkept
      split at hkept
      · obtain rfl := Option.some.inj hkept
        exact hbody
      · exact h.programs identity i other hkept

theorem empty (licence : Licence) : Store.empty.Keeps licence where
  helpers := by
    intro registry name helper hfound
    cases hfound
  partials := by
    intro registry name template hfound
    cases hfound
  programs := by
    intro identity index program hkept
    cases hkept

theorem registerHelper {helper : Helper} (h : store.Keeps licence)
    (hhelper : licence.AllowsHelper helper) (registry : Nat) (name : String) :
    (store.registerHelper registry name helper).Keeps licence where
  helpers := by
    intro other name' found hfound
    by_cases hother : other = registry
    · simp only [Store.registerHelper, helpersOf, hother, Table.get?_set_self,
        Option.getD_some] at hfound
      rw [Registry.get?_register] at hfound
      split at hfound
      · cases hfound
        exact hhelper
      · exact h.helpers registry name' found hfound
    · simp only [Store.registerHelper, helpersOf, Table.get?_set_ne _ _ hother] at hfound
      exact h.helpers other name' found hfound
  partials := h.partials
  programs := h.programs

theorem registerPartial {entry : Partial} (h : store.Keeps licence)
    (hentry : ∀ template, entry = .compiled template → template.Keeps licence) (registry : Nat)
    (name : String) : (store.registerPartial registry name entry).Keeps licence where
  helpers := h.helpers
  partials := by
    intro other name' template hfound
    rw [get?_registerPartial] at hfound
    split at hfound
    · exact hentry template (Option.some.inj hfound)
    · exact h.partials other name' template hfound
  programs := h.programs

theorem registerSource (h : store.Keeps licence) (registry : Nat) (name source : String) :
    (store.registerPartial registry name (.source source)).Keeps licence :=
  h.registerPartial (fun _ hsource => by cases hsource) registry name

/-- A partial that is found keeps to what its environment keeps to, or to what
the store does. -/
theorem finds {outcome : Outcome Template} (h : store.Keeps licence)
    (hoffers : frame.environment.Offers licence)
    (hfinds : frame.Finds {} name store (outcome, after)) :
    after.Keeps licence ∧ ∀ template, outcome = .done template → template.Keeps licence := by
  cases hfinds with
  | missing => exact ⟨h, fun _ hdone => nomatch hdone⟩
  | compiled found =>
      refine ⟨h, ?_⟩
      rintro _ ⟨⟩
      exact h.partials _ name _ found
  | unavailable => exact ⟨h, fun _ hdone => nomatch hdone⟩
  | rejected => exact ⟨h.congr rfl rfl rfl, fun _ hdone => nomatch hdone⟩
  | @accepted source compiler spec template made found given answer makes =>
      have hmade : made.Keeps licence ∧ template.Keeps licence := by
        cases makes
        exact ⟨h.congr rfl rfl rfl, hoffers source spec ⟨compiler, _, given, answer⟩, trivial,
          hoffers⟩
      rw [settled_kept]
      refine ⟨hmade.1.registerPartial ?_ _ _, ?_⟩
      · rintro _ ⟨⟩
        exact hmade.2
      · rintro _ ⟨⟩
        exact hmade.2

end Store.Keeps

namespace Store.Bound

variable {store after : Store} {frame : Frame} {name : String}

theorem congr (h : store.Bound environment) (hpartials : after.partials = store.partials) :
    after.Bound environment := by
  unfold Bound partialsOf
  rw [hpartials]
  exact h

theorem empty (environment : Environment) : Store.empty.Bound environment := by
  intro registry name template hfound
  cases hfound

theorem registerPartial {entry : Partial} (h : store.Bound environment)
    (hentry : ∀ template, entry = .compiled template → template.environment = environment)
    (registry : Nat) (name : String) :
    (store.registerPartial registry name entry).Bound environment := by
  intro other name' template hfound
  rw [get?_registerPartial] at hfound
  split at hfound
  · exact hentry template (Option.some.inj hfound)
  · exact h other name' template hfound

theorem registerSource (h : store.Bound environment) (registry : Nat) (name source : String) :
    (store.registerPartial registry name (.source source)).Bound environment :=
  h.registerPartial (fun _ hsource => by cases hsource) registry name

/-- A partial that is found is bound to the environment where it was looked
for. -/
theorem finds {outcome : Outcome Template} (h : store.Bound environment)
    (hframe : frame.environment = environment)
    (hfinds : frame.Finds {} name store (outcome, after)) :
    after.Bound environment ∧
      ∀ template, outcome = .done template → template.environment = environment := by
  cases hfinds with
  | missing => exact ⟨h, fun _ hdone => nomatch hdone⟩
  | compiled found =>
      refine ⟨h, ?_⟩
      rintro _ ⟨⟩
      exact h _ name _ found
  | unavailable => exact ⟨h, fun _ hdone => nomatch hdone⟩
  | rejected => exact ⟨h, fun _ hdone => nomatch hdone⟩
  | accepted found given answer made =>
      cases made
      refine ⟨(h.congr rfl).registerPartial ?_ _ _, ?_⟩
      · rintro _ ⟨⟩
        exact hframe
      · rintro _ ⟨⟩
        exact hframe

end Store.Bound

/-- Stores that make the same programs and the same templates. -/
structure Store.Agrees (s t : Store) : Prop where
  slots : s.slots = t.slots
  freshTemplate : s.freshTemplate = t.freshTemplate
  freshProgram : s.freshProgram = t.freshProgram
  attempts : s.attempts = t.attempts
  pen : s.pen = t.pen

namespace Store.Agrees

variable {s t : Store}

/-- What is logged, traced and counted, and what is registered, is free. -/
theorem congr (h : s.Agrees t) {s' t' : Store} (hpen : s'.pen = t'.pen)
    (hleft : s' = { s with
      pen := s'.pen, trace := s'.trace, messages := s'.messages, evaluations := s'.evaluations,
      frames := s'.frames, visits := s'.visits, compilations := s'.compilations })
    (hright : t' = { t with
      pen := t'.pen, trace := t'.trace, messages := t'.messages, evaluations := t'.evaluations,
      frames := t'.frames, visits := t'.visits, compilations := t'.compilations }) :
    s'.Agrees t' := by
  rw [hleft, hright]
  exact { h with pen := hpen }

theorem attempted (h : s.Agrees t) (first second : Compilation) :
    (s.attempted first).Agrees (t.attempted second) :=
  { h with attempts := congrArg (· + 1) h.attempts }

/-- Templates that share their programs are provided with the same one. -/
theorem requests (h : s.Agrees t) {template other : Template}
    (hidentity : template.identity = other.identity) (index : Nat) (body : List Node)
    (data : Option Value) :
    ∃ program after after', s.Provided after ∧ t.Provided after' ∧ after.Agrees after' ∧
      template.Requests index body data s program after ∧
      Render.requestProgram template index body data s = (.done program, after) ∧
      Render.requestProgram other index body data t = (.done program, after') := by
  obtain ⟨program, after, hrun, hrequests⟩ := template.requests_program index body data s
  obtain ⟨trace, hleft⟩ := template.requestProgram_run index body data s
  obtain ⟨trace', hright⟩ := other.requestProgram_run index body data t
  have hslots : s.slotsOf template = t.slotsOf other := by
    unfold slotsOf
    rw [h.slots, hidentity]
  rw [← hslots, ← h.freshProgram, ← h.slots, ← hidentity] at hright
  obtain ⟨rfl, rfl⟩ : _ ∧ _ := by simpa using hrun.symm.trans hleft
  exact ⟨_, _, _, hrequests.provided, ⟨_, _, _, rfl⟩,
    { h with slots := rfl, freshProgram := rfl }, hrequests, hrun, hright⟩

end Store.Agrees

end Stencil
