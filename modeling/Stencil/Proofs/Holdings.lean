import Stencil.Proofs.Finding
import Stencil.Proofs.Likeness.Hosts
import Stencil.Proofs.Requesting

/-!
What a render depends on. Besides its task that is what the store holds: the
registries, the programs that templates keep, and the numbers for what is made
next. Which frames are open, what the pen of a page around it has written, and
what was logged and counted make no difference, nor does the spec of the
template in whose frame something runs.
-/

namespace Stencil

/-- Stores that hold the same. -/
structure Store.SameHoldings (s t : Store) : Prop where
  helpers : s.helpers = t.helpers
  partials : s.partials = t.partials
  slots : s.slots = t.slots
  freshTemplate : s.freshTemplate = t.freshTemplate
  freshProgram : s.freshProgram = t.freshProgram
  attempts : s.attempts = t.attempts

namespace Store.SameHoldings

variable {s t : Store} {f g : Frame}

theorem refl (s : Store) : s.SameHoldings s := ⟨rfl, rfl, rfl, rfl, rfl, rfl⟩

theorem symm (h : s.SameHoldings t) : t.SameHoldings s where
  helpers := h.helpers.symm
  partials := h.partials.symm
  slots := h.slots.symm
  freshTemplate := h.freshTemplate.symm
  freshProgram := h.freshProgram.symm
  attempts := h.attempts.symm

theorem trans {u : Store} (h : s.SameHoldings t) (h' : t.SameHoldings u) : s.SameHoldings u where
  helpers := h.helpers.trans h'.helpers
  partials := h.partials.trans h'.partials
  slots := h.slots.trans h'.slots
  freshTemplate := h.freshTemplate.trans h'.freshTemplate
  freshProgram := h.freshProgram.trans h'.freshProgram
  attempts := h.attempts.trans h'.attempts

/-- What is logged, traced and counted, the pens and the frames are free. -/
theorem congr (h : s.SameHoldings t) {s' t' : Store}
    (hleft : s' = { s with
      pen := s'.pen, trace := s'.trace, messages := s'.messages, evaluations := s'.evaluations,
      frames := s'.frames, visits := s'.visits, compilations := s'.compilations })
    (hright : t' = { t with
      pen := t'.pen, trace := t'.trace, messages := t'.messages, evaluations := t'.evaluations,
      frames := t'.frames, visits := t'.visits, compilations := t'.compilations }) :
    s'.SameHoldings t' := by
  rw [hleft, hright]
  exact { h with }

theorem partialsOf_eq (h : s.SameHoldings t) : s.partialsOf = t.partialsOf := by
  funext registry
  unfold partialsOf
  rw [h.partials]

theorem mirrors (h : s.SameHoldings t) : s.Mirrors t where
  helpers := h.helpers
  names registry := by rw [h.partialsOf_eq]

theorem partialHome_eq (h : s.SameHoldings t) (henvironment : f.environment = g.environment)
    (hoptions : f.options = g.options) (name : String) :
    s.partialHome f name = t.partialHome g name := by
  unfold partialHome
  rw [h.partialsOf_eq, henvironment, hoptions]

theorem entry?_eq (h : s.SameHoldings t) (henvironment : f.environment = g.environment)
    (hoptions : f.options = g.options) (name : String) :
    s.entry? f name = t.entry? g name := by
  unfold entry?
  rw [h.partialHome_eq henvironment hoptions, h.partialsOf_eq]

theorem attempted (h : s.SameHoldings t) (first second : Compilation) :
    (s.attempted first).SameHoldings (t.attempted second) :=
  { h with attempts := congrArg (· + 1) h.attempts }

theorem newTemplate (h : s.SameHoldings t) (environment : Environment) (spec : Spec) :
    (s.newTemplate environment spec).1 = (t.newTemplate environment spec).1 ∧
      (s.newTemplate environment spec).2.SameHoldings (t.newTemplate environment spec).2 := by
  refine ⟨?_, { h with
    freshTemplate := congrArg (· + 1) h.freshTemplate
    freshProgram := congrArg (· + 1) h.freshProgram }⟩
  simp only [Store.newTemplate, h.freshTemplate, h.freshProgram]

theorem registerPartial (h : s.SameHoldings t) (registry : Nat) (name : String)
    (entry : Partial) :
    (s.registerPartial registry name entry).SameHoldings
      (t.registerPartial registry name entry) := by
  refine { h with partials := ?_ }
  unfold Store.registerPartial
  rw [h.partials, h.partialsOf_eq]

end Store.SameHoldings

namespace Holdings

/-- Frames in which programs do the same. The specs of their templates may
differ. -/
structure Frames (f g : Frame) : Prop where
  identity : f.template.identity = g.template.identity
  environment : f.environment = g.environment
  noop : f.template.noop = g.template.noop
  options : f.options = g.options

theorem Frames.refl (f : Frame) : Frames f f := ⟨rfl, rfl, rfl, rfl⟩

/-- Two renders from stores that hold the same. The world tells whether they
write a page, for then the pens are equal as well. -/
def parallel : Parallel Bool where
  grows := Eq
  stores writing s t := s.SameHoldings t ∧ (writing = true → s.pen = t.pen)
  grows_refl _ := rfl
  grows_trans := Eq.trans
  frames _ := Frames
  opens _ := Eq
  identities _ := Eq
  licence _ := .free
  writing writing := writing = true
  frames_grow _ h := h
  identities_grow _ h := h
  writing_grows := by
    rintro w _ rfl h
    exact h

variable {writing : Bool} {s t : Store} {f g : Frame}

theorem program_self (f : Frame) (p : Program) : parallel.Programs writing f p p :=
  ⟨rfl, rfl, rfl, rfl, Licence.free_allowsNodes p.body⟩

theorem provides_alike (hframe : Frames f g) (index : Nat) (body : List Node)
    (data : Option Value) :
    parallel.Alike writing (fun w => parallel.Programs w f)
      (Render.requestProgram f.template index body data)
      (Render.requestProgram g.template index body data) := by
  rintro s t ⟨h, hpen⟩
  obtain ⟨_, hleft⟩ := f.template.requestProgram_run index body data s
  obtain ⟨_, hright⟩ := g.template.requestProgram_run index body data t
  have hslots : s.slotsOf f.template = t.slotsOf g.template := by
    unfold Store.slotsOf
    rw [h.slots, hframe.identity]
  rw [hleft, hright, hslots, h.freshProgram, h.slots, hframe.identity]
  exact .done rfl (program_self f _) ⟨{ h with slots := rfl, freshProgram := rfl }, hpen⟩

theorem makes_alike (f : Frame) (body : List Node) (data : Option Value) (depths : List Value) :
    parallel.Alike writing (fun w => parallel.Programs w f)
      (Render.newProgram body data depths) (Render.newProgram body data depths) := by
  rintro s t ⟨h, hpen⟩
  have hidentity : s.freshProgram = t.freshProgram := h.freshProgram
  refine .done rfl ⟨hidentity, rfl, rfl, rfl, Licence.free_allowsNodes body⟩ ⟨?_, hpen⟩
  exact { h with freshProgram := congrArg (· + 1) h.freshProgram }

/-- A source that is accepted becomes the same template, kept in the same
registry. -/
theorem accepted_ends (hframe : Frames f g) (name : String) (spec : Spec)
    (hstores : parallel.stores writing s t) :
    parallel.Ends writing
      (fun _ a b => (⟨a, f.options.nested⟩ : Frame) = ⟨b, g.options.nested⟩)
      (f.accepted {} name spec s) (g.accepted {} name spec t) := by
  obtain ⟨h, hpen⟩ := hstores
  have hhome := h.partialHome_eq hframe.environment hframe.options name
  obtain ⟨htemplate, hmade⟩ := (h.attempted ⟨s.partialHome f name, name, true⟩
    ⟨t.partialHome g name, name, true⟩).newTemplate f.environment spec
  have hpens : writing = true →
      ((s.attempted ⟨s.partialHome f name, name, true⟩).newTemplate f.environment spec).2.pen =
        ((t.attempted ⟨t.partialHome g name, name, true⟩).newTemplate f.environment spec).2.pen :=
    hpen
  unfold Frame.accepted
  rw [← hframe.environment, ← hframe.options]
  generalize (s.attempted _).newTemplate f.environment spec = x at htemplate hmade hpens
  generalize (t.attempted _).newTemplate f.environment spec = y at htemplate hmade hpens
  rw [hhome]
  refine .done rfl (congrArg (Frame.mk · f.options.nested) htemplate) ⟨?_, hpens⟩
  rw [htemplate]
  exact hmade.registerPartial _ name _

theorem finds_alike (hframe : Frames f g) (name : String) :
    parallel.Alike writing
      (fun _ a b => (⟨a, f.options.nested⟩ : Frame) = ⟨b, g.options.nested⟩)
      (f.partialTemplate {} name) (g.partialTemplate {} name) := by
  rintro s t hstores
  have hentries := hstores.1.entry?_eq hframe.environment hframe.options name
  cases hleft : s.entry? f name with
  | none =>
      rw [Frame.partialTemplate_missing hleft,
        Frame.partialTemplate_missing (hentries.symm.trans hleft)]
      exact .failed _ rfl hstores
  | some entry =>
      have hright : t.entry? g name = some entry := hentries.symm.trans hleft
      cases entry with
      | compiled template =>
          rw [Frame.partialTemplate_compiled hleft, Frame.partialTemplate_compiled hright]
          refine .done rfl ?_ hstores
          rw [hframe.options]
      | source source =>
          have hcompiler : g.environment.compiler = f.environment.compiler :=
            congrArg Environment.compiler hframe.environment.symm
          refine Frame.source_ends hstores ?_ hleft hright hcompiler ?_ ?_
          · exact fun first second => ⟨hstores.1.attempted first second, hstores.2⟩
          · exact fun _ _ => by rw [hstores.1.attempts]
          · exact fun _ spec _ _ => accepted_ends hframe name spec hstores

/-- Renders from stores that hold the same obey the laws, so all of them are
alike. -/
theorem lawful : parallel.Lawful {} {} where
  pen hwriting h := h.2 hwriting
  quiet _ h hquiet hpen :=
    ⟨h.1.congr (hquiet _).eq (hquiet _).eq, fun hwriting => hpen _ _ (h.2 hwriting)⟩
  logs h _ _ _ := ⟨h.1.congr rfl rfl, h.2⟩
  frames_match h := by
    refine ⟨.inl (congrArg Environment.settings h.environment), ?_, ?_⟩
    · rw [h.options]
    · rw [h.options]
  opens_match := by
    rintro _ f _ rfl
    exact f.matches_self _
  opens_spec := by
    rintro _ f _ rfl
    rfl
  strict _ _ lenient := lenient
  allows_spec _ := Licence.free_allowsSpec _
  noop h := by
    rw [h.noop]
    exact program_self _ _
  helper h hframe name :=
    ⟨h.1.mirrors.helper?_eq hframe.environment hframe.options name,
      fun helper _ => Licence.free_allowsHelper helper⟩
  helper_names h hframe := h.1.mirrors.helperNames_eq hframe.environment hframe.options
  partial_names h hframe := h.1.mirrors.partialNames_eq hframe.environment hframe.options
  outline h hframe _ := by
    rw [hframe.options]
    exact h.1.mirrors.outline_eq _
  provides hframe _ _ := provides_alike hframe _ _ _
  makes _ _ := makes_alike _ _ _ _
  compares := by
    rintro _ s t f g i j _ _ _ _ _ rfl rfl
    exact Iff.rfl
  counts h hframe _ := by
    unfold Store.slotsOf
    rw [h.1.slots, hframe.identity]
  finds hframe name := finds_alike hframe name
  enter := by
    rintro writing f _ s t rfl ⟨h, hpen⟩ _
    refine ⟨writing, .refl f, ⟨h.congr rfl rfl, hpen⟩, ?_⟩
    rintro _ s' t' rfl ⟨hlast, hpen'⟩
    exact ⟨writing, rfl, hlast.congr rfl rfl, hpen'⟩
  writes := by
    rintro writing s t ⟨h, hpen⟩
    refine ⟨true, rfl, fun _ _ hframe => hframe, ⟨h.congr rfl rfl, fun _ => rfl⟩, ?_⟩
    rintro _ s' t' rfl ⟨hlast, _⟩
    exact ⟨writing, rfl, hlast.congr rfl rfl, hpen⟩

end Holdings

end Stencil
