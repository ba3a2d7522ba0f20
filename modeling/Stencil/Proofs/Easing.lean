import Stencil.Proofs.Keeping
import Stencil.Proofs.Likeness.Runs

/-!
Settings that are eased. When the settings of environments are replaced by ones
that accept more, a render that gave a text gives the same text, and leaves the
same partials and programs behind. Settings only ever turn a text into a
failure; so a render under stricter settings is held beside one under eased
ones, and it does not matter what stands beside a failure.
-/

namespace Stencil

/-- What a program may do that neither looks at the settings nor handles
failures. -/
def Licence.unsettled : Licence := { Licence.free with settings := False, handles := False }

section

variable {α β : Type}

def Registry.map (f : α → β) (registry : Registry α) : Registry β where
  entries := registry.entries.map fun entry => (entry.1, f entry.2)
  ordered := by
    unfold Ordered
    rw [List.pairwise_map]
    exact registry.ordered

def Table.map (f : α → β) (table : Table α) : Table β :=
  ⟨table.entries.map fun entry => (entry.1, f entry.2)⟩

end

namespace Registry

variable {α β : Type} (f : α → β)

theorem names_map (registry : Registry α) : (registry.map f).names = registry.names := by
  simp only [names, map, List.map_map]
  rfl

theorem get?_map (registry : Registry α) (name : String) :
    (registry.map f).get? name = (registry.get? name).map f := by
  obtain ⟨entries, ordered⟩ := registry
  show field? name (entries.map fun entry => (entry.1, f entry.2)) = (field? name entries).map f
  clear ordered
  induction entries with
  | nil => rfl
  | cons entry rest ih =>
      simp only [List.map_cons, field?]
      split
      · rfl
      · exact ih

theorem map_register (registry : Registry α) (name : String) (entry : α) :
    (registry.register name entry).map f = (registry.map f).register name (f entry) := by
  obtain ⟨entries, ordered⟩ := registry
  have hentries : (insertField name entry entries).map (fun entry => (entry.1, f entry.2)) =
      insertField name (f entry) (entries.map fun entry => (entry.1, f entry.2)) := by
    clear ordered
    induction entries with
    | nil => rfl
    | cons first rest ih =>
        simp only [insertField, List.map_cons]
        split
        · rfl
        · split
          · rfl
          · rw [List.map_cons, ih]
  simp only [map, register, hentries]

end Registry

namespace Table

variable {α β : Type} (f : α → β)

theorem get?_map (table : Table α) (index : Nat) :
    (table.map f).get? index = (table.get? index).map f := by
  obtain ⟨entries⟩ := table
  show entryAt index (entries.map fun entry => (entry.1, f entry.2)) = (entryAt index entries).map f
  induction entries with
  | nil => rfl
  | cons entry rest ih =>
      simp only [List.map_cons, entryAt]
      split
      · rfl
      · exact ih

theorem map_set (table : Table α) (index : Nat) (value : α) :
    (table.set index value).map f = (table.map f).set index (f value) := by
  obtain ⟨entries⟩ := table
  simp only [map, set]
  congr 1
  induction entries with
  | nil => rfl
  | cons entry rest ih =>
      simp only [setEntry, List.map_cons]
      split
      · rfl
      · rw [List.map_cons, ih]

end Table

section

variable (ease : Environment → Settings)

def Environment.eased (environment : Environment) : Environment :=
  { environment with settings := ease environment }

def Template.eased (template : Template) : Template :=
  { template with environment := template.environment.eased ease }

def Partial.eased : Partial → Partial
  | .compiled template => .compiled (template.eased ease)
  | .source text => .source text

def Frame.eased (frame : Frame) : Frame := { frame with template := frame.template.eased ease }

/-- The store with the settings of the environments eased that registered
templates belong to. -/
def Store.eased (store : Store) : Store :=
  { store with partials := store.partials.map (·.map (·.eased ease)) }

end

namespace Store

variable (ease : Environment → Settings) (store : Store)

theorem partialsOf_eased (registry : Nat) :
    (store.eased ease).partialsOf registry = (store.partialsOf registry).map (·.eased ease) := by
  unfold partialsOf
  rw [eased, Table.get?_map]
  cases store.partials.get? registry with
  | none => rfl
  | some registry => rfl

theorem eased_registerPartial (registry : Nat) (name : String) (entry : Partial) :
    (store.registerPartial registry name entry).eased ease =
      (store.eased ease).registerPartial registry name (entry.eased ease) := by
  unfold registerPartial
  rw [partialsOf_eased, ← Registry.map_register]
  simp only [eased, Table.map_set]

theorem partialHome_eased (frame : Frame) (name : String) :
    (store.eased ease).partialHome (frame.eased ease) name = store.partialHome frame name := by
  have hsame : (store.eased ease).partialHome frame name = store.partialHome frame name := by
    refine partialHome_congr (fun registry name => ?_) frame name
    rw [partialsOf_eased, Registry.get?_map, Option.isSome_map]
  rw [← hsame]
  rfl

/-- What is found under eased settings is what was found, eased. -/
theorem entry?_eased (frame : Frame) (name : String) :
    Store.entry? (store.eased ease) (frame.eased ease) name =
      (store.entry? frame name).map (·.eased ease) := by
  unfold entry?
  rw [partialHome_eased, partialsOf_eased, Registry.get?_map]

end Store

namespace Easing

/-- Stores under strict settings and under eased ones: they differ in nothing
that rendering looks at but the settings of registered templates. -/
structure Stores (licence : Licence) (ease : Environment → Settings) (s t : Store) : Prop
    extends s.Agrees t where
  helpers : t.helpers = s.helpers
  partials : t.partials = (s.eased ease).partials
  keeps : s.Keeps licence

/-- Frames of one template under strict settings and under eased ones. -/
structure Frames (licence : Licence) (ease : Environment → Settings) (f g : Frame) : Prop where
  eased : g = f.eased ease
  keeps : f.template.Keeps licence

variable {licence : Licence} {ease : Environment → Settings} {f g : Frame} {s t : Store}
  {name : String}

namespace Stores

theorem congr (h : Stores licence ease s t) {s' t' : Store} (hpen : s'.pen = t'.pen)
    (hleft : s' = { s with
      pen := s'.pen, trace := s'.trace, messages := s'.messages, evaluations := s'.evaluations,
      frames := s'.frames, visits := s'.visits, compilations := s'.compilations })
    (hright : t' = { t with
      pen := t'.pen, trace := t'.trace, messages := t'.messages, evaluations := t'.evaluations,
      frames := t'.frames, visits := t'.visits, compilations := t'.compilations }) :
    Stores licence ease s' t' := by
  have hagrees := h.toAgrees.congr hpen hleft hright
  rw [hleft, hright] at hagrees ⊢
  exact { h with toAgrees := hagrees, keeps := h.keeps.congr rfl rfl rfl }

theorem attempted (h : Stores licence ease s t) (first second : Compilation) :
    Stores licence ease (s.attempted first) (t.attempted second) :=
  { h with toAgrees := h.toAgrees.attempted first second, keeps := h.keeps.congr rfl rfl rfl }

theorem provided (h : Stores licence ease s t) {s' t' : Store} (hleft : s.Provided s')
    (hright : t.Provided t') (hagrees : s'.Agrees t') (hkeeps : s'.Keeps licence) :
    Stores licence ease s' t' := by
  obtain ⟨_, _, _, rfl⟩ := hleft
  obtain ⟨_, _, _, rfl⟩ := hright
  exact { h with toAgrees := hagrees, keeps := hkeeps }

theorem partialsOf_eq (h : Stores licence ease s t) (registry : Nat) :
    t.partialsOf registry = (s.partialsOf registry).map (·.eased ease) := by
  rw [← s.partialsOf_eased]
  unfold Store.partialsOf
  rw [h.partials]

theorem helpersOf_eq (h : Stores licence ease s t) (registry : Nat) :
    t.helpersOf registry = s.helpersOf registry := by
  unfold Store.helpersOf
  rw [h.helpers]

theorem partialHome_eq (h : Stores licence ease s t) (f : Frame) (name : String) :
    t.partialHome (f.eased ease) name = s.partialHome f name := by
  rw [← s.partialHome_eased ease]
  unfold Store.partialHome Store.partialsOf
  rw [h.partials]

theorem entry_eq (h : Stores licence ease s t) (f : Frame) (name : String) :
    t.entry? (f.eased ease) name = (s.entry? f name).map (·.eased ease) := by
  rw [← s.entry?_eased]
  exact Store.entry?_congr h.partials _ _

theorem helper_eq (h : Stores licence ease s t) (f : Frame) (name : String) :
    t.helper? (f.eased ease) name = s.helper? f name := by
  unfold Store.helper?
  simp only [h.helpersOf_eq]
  rfl

/-- A source was accepted under both settings. -/
theorem settled (h : Stores licence ease s t) (f : Frame) {spec : Spec} {after : Store}
    (hmade : (s.newTemplate f.environment spec).2.settled {} (s.partialHome f name) name
      (s.newTemplate f.environment spec).1 = after) (hkeeps : after.Keeps licence) :
    Stores licence ease after
      ((t.newTemplate (f.eased ease).environment spec).2.settled {}
        (t.partialHome (f.eased ease) name) name
        (t.newTemplate (f.eased ease).environment spec).1) := by
  subst hmade
  rw [h.partialHome_eq]
  have htemplate : (t.newTemplate (f.eased ease).environment spec).1 =
      (s.newTemplate f.environment spec).1.eased ease := by
    simp only [Store.newTemplate, ← h.freshTemplate, ← h.freshProgram]
    rfl
  refine {
    slots := h.slots
    freshTemplate := congrArg (· + 1) h.freshTemplate
    freshProgram := congrArg (· + 1) h.freshProgram
    attempts := h.attempts
    pen := h.pen
    helpers := h.helpers
    partials := ?_
    keeps := hkeeps }
  rw [htemplate, Store.settled_kept, Store.settled_kept, Store.eased_registerPartial]
  show t.partials.set _ _ = (s.eased ease).partials.set _ _
  rw [← h.partials]
  congr 2
  exact h.partialsOf_eq _ |>.trans (s.partialsOf_eased ease _).symm

end Stores

/-- A render under strict settings, and one under eased ones. -/
def parallel (licence : Licence) (ease : Environment → Settings) : Parallel Unit where
  grows := Eq
  stores _ := Stores licence ease
  grows_refl _ := rfl
  grows_trans := Eq.trans
  lenient := True
  frames _ := Frames licence ease
  opens _ := Frames licence ease
  identities _ := Eq
  licence _ := licence
  frames_grow _ h := h
  identities_grow _ h := h

theorem nested_frames (f : Frame) {template : Template} (hkeeps : template.Keeps licence) :
    Frames licence ease ⟨template, f.options.nested⟩
      ⟨template.eased ease, (f.eased ease).options.nested⟩ :=
  ⟨rfl, hkeeps⟩

theorem source_ends (h : Stores licence ease s t) (hkeeps : f.template.Keeps licence)
    {source : String} (hleft : s.entry? f name = some (.source source))
    (hright : t.entry? (f.eased ease) name = some (.source source)) :
    (parallel licence ease).Ends ()
      (fun _ a b => Frames licence ease ⟨a, f.options.nested⟩ ⟨b, (f.eased ease).options.nested⟩)
      (f.partialTemplate {} name s) ((f.eased ease).partialTemplate {} name t) := by
  refine Frame.source_ends h h.attempted hleft hright rfl (fun _ _ => by rw [h.attempts]) ?_
  intro compiler spec hcompiler hanswer
  have hfinds := f.finds_partialTemplate {} name s
  rw [Frame.partialTemplate_accepted hleft hcompiler hanswer] at hfinds
  obtain ⟨hafter, htemplate⟩ := h.keeps.finds hkeeps.offers hfinds
  have hsame : (t.newTemplate (f.eased ease).environment spec).1 =
      (s.newTemplate f.environment spec).1.eased ease := by
    simp only [Store.newTemplate, ← h.freshTemplate, ← h.freshProgram]
    rfl
  refine .done rfl ?_ ((h.attempted _ _).settled f rfl hafter)
  show Frames licence ease ⟨(s.newTemplate f.environment spec).1, f.options.nested⟩
    ⟨(t.newTemplate (f.eased ease).environment spec).1, (f.eased ease).options.nested⟩
  rw [hsame]
  exact nested_frames f (htemplate _ rfl)

theorem finds_alike (hkeeps : f.template.Keeps licence) (name : String) :
    (parallel licence ease).Alike ()
      (fun _ a b => Frames licence ease ⟨a, f.options.nested⟩ ⟨b, (f.eased ease).options.nested⟩)
      (f.partialTemplate {} name) ((f.eased ease).partialTemplate {} name) := by
  intro s t h
  have hentry := h.entry_eq f name
  cases hleft : s.entry? f name with
  | none =>
      rw [hleft] at hentry
      rw [Frame.partialTemplate_missing hleft, Frame.partialTemplate_missing hentry]
      exact .failed _ rfl h
  | some entry =>
      rw [hleft] at hentry
      cases entry with
      | compiled template =>
          rw [Frame.partialTemplate_compiled hleft, Frame.partialTemplate_compiled hentry]
          exact .done rfl (nested_frames f (h.keeps.partials _ name template hleft)) h
      | source source => exact source_ends h hkeeps hleft hentry

theorem provides_alike (f : Frame) {index : Nat} {body : List Node} {data : Option Value}
    (hallowed : licence.AllowsNodes body) :
    (parallel licence ease).Alike () (fun _ => (parallel licence ease).Programs () f)
      (Render.requestProgram f.template index body data)
      (Render.requestProgram (f.eased ease).template index body data) := by
  intro s t h
  have hidentity : f.template.identity = (f.eased ease).template.identity := rfl
  obtain ⟨program, s', t', hleft, hright, hagrees, hrequests, hrun, hrun'⟩ :=
    h.toAgrees.requests hidentity index body data
  obtain ⟨hbody, hkeeps⟩ := h.keeps.requests hallowed hrequests
  rw [hrun, hrun']
  exact .done rfl ⟨rfl, rfl, rfl, rfl, hbody⟩ (h.provided hleft hright hagrees hkeeps)

theorem makes_alike (f : Frame) {body : List Node} {data : Option Value} {depths : List Value}
    (hallowed : licence.AllowsNodes body) :
    (parallel licence ease).Alike () (fun _ => (parallel licence ease).Programs () f)
      (Render.newProgram body data depths) (Render.newProgram body data depths) := by
  intro s t h
  refine .done rfl ⟨h.freshProgram, rfl, rfl, rfl, hallowed⟩ ?_
  exact { h with
    freshProgram := congrArg (· + 1) h.freshProgram
    keeps := h.keeps.congr rfl rfl rfl }

theorem lawful
    (heases : ∀ environment : Environment, environment.settings.EasedBy (ease environment)) :
    (parallel .unsettled ease).Lawful {} {} where
  pen _ h := h.pen
  quiet _ h hquiet hpen := h.congr (hpen _ _ h.pen) (hquiet _).eq (hquiet _).eq
  logs h _ _ _ := h.congr h.pen rfl rfl
  frames_match := by
    rintro _ f _ ⟨rfl, _⟩
    exact ⟨.inr ⟨trivial, heases f.environment⟩, rfl, rfl⟩
  opens_match := by
    rintro _ f _ ⟨rfl, _⟩
    exact ⟨.inr ⟨trivial, heases f.environment⟩, rfl, rfl⟩
  opens_spec := by
    rintro _ f _ ⟨rfl, _⟩
    rfl
  strict _ h _ := h.elim id id
  allows_spec h := h.keeps.spec
  noop := by
    rintro _ f _ ⟨rfl, hkeeps⟩
    exact ⟨rfl, rfl, rfl, rfl, hkeeps.noop⟩
  helper := by
    rintro _ s t f _ h ⟨rfl, _⟩ name
    exact ⟨(h.helper_eq f name).symm, fun _ hfound => h.keeps.helper hfound⟩
  helper_names := by
    rintro _ s t f _ h ⟨rfl, _⟩
    unfold Page.helperNames
    simp only [h.helpersOf_eq]
    rfl
  partial_names := by
    rintro _ s t f _ h ⟨rfl, _⟩
    unfold Page.partialNames
    simp only [h.partialsOf_eq, Registry.names_map]
    rfl
  outline := by
    rintro _ s t f _ h ⟨rfl, _⟩ _
    unfold RenderOptions.outline Registry.outline
    simp only [h.helpersOf_eq, h.partialsOf_eq, Registry.names_map]
    rfl
  provides := by
    rintro _ f _ index body data ⟨rfl, _⟩ _ hallowed
    exact provides_alike f hallowed
  makes := by
    rintro _ f _ body data depths ⟨rfl, _⟩ hallowed
    exact makes_alike f hallowed
  compares := by
    rintro _ s t f g i j _ _ _ _ _ rfl rfl
    exact Iff.rfl
  counts := by
    rintro _ s t f _ h ⟨rfl, _⟩ _
    unfold Store.slotsOf
    rw [h.slots]
    rfl
  finds := by
    rintro _ f _ ⟨rfl, hkeeps⟩ name
    exact finds_alike hkeeps name
  enter := by
    rintro _ f g s t hopens h _
    refine ⟨(), hopens, h.congr h.pen rfl rfl, ?_⟩
    intro _ s' t' _ hlast
    exact ⟨(), rfl, hlast.congr hlast.pen rfl rfl⟩
  writes h := Parallel.writes_within h trivial h.pen fun _ hlast => hlast.congr rfl rfl rfl

theorem begins {store : Store} (hkeeps : store.Keeps licence) :
    Stores licence ease store (store.eased ease) :=
  { slots := rfl, freshTemplate := rfl, freshProgram := rfl, attempts := rfl, pen := rfl,
    helpers := rfl, partials := rfl, keeps := hkeeps }

end Easing

/-- Easing settings changes no text. If a render gives a text, then from the
same store, with the settings of every environment replaced by ones that accept
more, it gives that text as well; and it leaves the same partials registered,
bound to the eased environments, and the same programs in the slots. -/
theorem Template.renders_eased (ease : Environment → Settings)
    (heases : ∀ environment : Environment, environment.settings.EasedBy (ease environment))
    {store : Store} {template : Template} (hstore : store.Keeps .unsettled)
    (htemplate : template.Keeps .unsettled) (levels : Nat) (context : Value)
    (options : RenderOptions) {text : String} {after : Store}
    (hgives : Task.run {} levels (.template template context options) store =
      (.done text, after)) :
    ∃ last, Task.run {} levels (.template (template.eased ease) context options)
        (store.eased ease) = (.done text, last) ∧
      last.partials = (after.eased ease).partials ∧ last.slots = after.slots := by
  have laws := Easing.lawful heases
  have htask : (Easing.parallel .unsettled ease).Tasks () (.template template context options)
      (.template (template.eased ease) context options) := .template ⟨rfl, htemplate⟩
  have hends := laws.run_alike levels () _ _ htask _ _ (Easing.begins hstore)
  rw [hgives] at hends
  obtain ⟨_, last, _, hlast, hstores⟩ := hends.of_done
  exact ⟨last, hlast, hstores.partials, hstores.slots.symm⟩

namespace Tight

/-- Settings under which nothing more would fit. -/
def environment : Environment := ⟨0, 0, ⟨.asymmetric, 1, some 2⟩, some .echo, .standard⟩

def ease (environment : Environment) : Settings :=
  ⟨.empty, environment.settings.maxPartialDepth + 1, none⟩

theorem eases (environment : Environment) : environment.settings.EasedBy (ease environment) where
  missing := by
    show _ ≤ MissingPolicy.empty.leniency
    cases environment.settings.missing <;> decide
  depth := Nat.le_succ _
  output := by
    intro limit hlimit
    cases hlimit

/-- An iteration, a block of an unknown helper, and a partial. -/
def template : Template :=
  ⟨0, environment,
    .nodes [.call "each" (.this none)
        (.mk false (some (.cached 0 [.escaped (.this none)] none)) none none false),
      .missingBlock "unknown" (.mk false none none none false),
      .inclusion "p" (.this none)],
    ⟨0, [], none, []⟩⟩

def store : Store :=
  ({ Store.empty with freshTemplate := 1, freshProgram := 1 }.registerHelper 0 "each"
    ⟨.builtin .each, none⟩).registerPartial 0 "p" (.source "p")

def items : Value := .array [.string "a", .string "b"]

theorem template_keeps : template.Keeps .unsettled := by
  refine ⟨?_, trivial, ?_⟩
  · simp [template, Licence.AllowsSpec, Licence.AllowsNodes, Licence.AllowsNode,
      Licence.AllowsExpr, Licence.AllowsOptions, Licence.AllowsProgram?, Licence.AllowsProgram,
      Licence.AllowsExpr?, Licence.unsettled, Licence.free]
  · exact Compiler.echo_offers rfl

theorem store_keeps : store.Keeps .unsettled := by
  have hfresh : Store.Keeps .unsettled { Store.empty with freshTemplate := 1, freshProgram := 1 } :=
    (Store.Keeps.empty _).congr rfl rfl rfl
  have heach : Licence.unsettled.AllowsHelper ⟨.builtin .each, none⟩ :=
    ⟨trivial, fun _ hnone => nomatch hnone⟩
  exact (hfresh.registerHelper heach 0 "each").registerSource 0 "p" "p"

theorem gives : (Task.run {} 5 (.template template items {}) store).1 = .done "abp:a,b" := by
  decide +kernel

end Tight

/-- What just fits under strict settings gives the same under eased ones, and
leaves the partial compiled and the program of the iteration kept. -/
theorem Template.renders_eased_tight :
    ∃ last, Task.run {} 5 (.template (Tight.template.eased Tight.ease) Tight.items {})
        (Tight.store.eased Tight.ease) = (.done "abp:a,b", last) ∧
      (last.kept? 0 0).isSome = true ∧
      ((last.partialsOf 0).get? "p").any Partial.isCompiled = true := by
  obtain ⟨last, hlast, hpartials, hslots⟩ := Template.renders_eased Tight.ease Tight.eases
    Tight.store_keeps Tight.template_keeps 5 Tight.items {} (Prod.ext Tight.gives rfl)
  refine ⟨last, hlast, ?_, ?_⟩
  · unfold Store.kept?
    rw [hslots]
    decide +kernel
  · unfold Store.partialsOf
    rw [hpartials]
    decide +kernel

end Stencil
