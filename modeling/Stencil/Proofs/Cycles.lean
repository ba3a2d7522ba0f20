import Mathlib
import Stencil.Compiler
import Stencil.Proofs.Ending.Nodes
import Stencil.Proofs.Ending.Pages
import Stencil.Proofs.KeptPrograms

/-!
Partials that refer to each other in circles. Each reference leads one partial
deeper, and no settings of a host let partials lie deeper than some limit; so
renders end by induction on how many partials may still be opened, and inside a
template by induction on its nodes. The main statement is that every render of a
host ends, whatever is registered and whatever was rendered before. Nothing else
bounds a circle: a partial that includes itself is opened as often as its
settings allow.
-/

namespace Stencil

/-- What is rendered ends as far as it is known here: programs do, and pages
that end when their calls do. -/
def Spec.Ends : Spec → Prop
  | .nodes _ => True
  | .page elements => Source.Ends elements

/-- What the operations of a host stay within: how deep any settings let
partials lie, and the sources that are registered. -/
structure Bounds where
  limit : Nat
  sources : String → Prop

namespace Bounds

variable (bounds : Bounds)

/-- An environment whose settings are within the limit, and whose compiler makes
nothing of the sources but what ends. -/
structure Covers (environment : Environment) : Prop where
  depth : environment.settings.maxPartialDepth ≤ bounds.limit
  compiles : ∀ source spec, bounds.sources source → environment.Compiles source spec → spec.Ends

structure Admits (template : Template) : Prop where
  covers : bounds.Covers template.environment
  spec : template.spec.Ends
  noop : template.noop.body = []

/-- An entry of a registry that stays within the bounds. -/
def Entry : Partial → Prop
  | .compiled template => bounds.Admits template
  | .source text => bounds.sources text

/-- A store where all helpers are built in and all partials are within the
bounds. -/
structure Holds (store : Store) : Prop where
  helpers : ∀ registry name helper, (store.helpersOf registry).get? name = some helper →
    helper.IsBuiltin
  partials : ∀ registry name entry, (store.partialsOf registry).get? name = some entry →
    bounds.Entry entry

variable {bounds} {store after : Store} {frame : Frame} {name : String}

namespace Holds

theorem congr (h : bounds.Holds store) (hhelpers : after.helpers = store.helpers)
    (hpartials : after.partials = store.partials) : bounds.Holds after where
  helpers := by
    unfold Store.helpersOf
    rw [hhelpers]
    exact h.helpers
  partials := by
    unfold Store.partialsOf
    rw [hpartials]
    exact h.partials

theorem quiet (h : bounds.Holds store) (hquiet : store.Quiet after) : bounds.Holds after := by
  obtain ⟨_, _, _, _, rfl⟩ := hquiet
  exact h.congr rfl rfl

theorem empty : bounds.Holds .empty where
  helpers := by
    intro registry name helper hfound
    cases hfound
  partials := by
    intro registry name entry hfound
    cases hfound

theorem registerPartial {entry : Partial} (h : bounds.Holds store) (hentry : bounds.Entry entry)
    (registry : Nat) (name : String) : bounds.Holds (store.registerPartial registry name entry) where
  helpers := h.helpers
  partials := by
    intro other name' found hfound
    rw [Store.get?_registerPartial] at hfound
    split at hfound
    · obtain rfl := Option.some.inj hfound
      exact hentry
    · exact h.partials other name' found hfound

/-- Another registry of helpers takes a place. -/
theorem setHelpers (h : bounds.Holds store) (index fresh : Nat) (registry : Registry Helper)
    (hbuiltin : ∀ name helper, registry.get? name = some helper → helper.IsBuiltin) :
    bounds.Holds
      { store with helpers := store.helpers.set index registry, freshHelpers := fresh } where
  helpers := by
    intro other name helper hfound
    by_cases hother : other = index
    · simp only [Store.helpersOf, hother, Table.get?_set_self, Option.getD_some] at hfound
      exact hbuiltin name helper hfound
    · simp only [Store.helpersOf, Table.get?_set_ne _ _ hother] at hfound
      exact h.helpers other name helper hfound
  partials := h.partials

theorem registerHelper {helper : Helper} (h : bounds.Holds store) (hhelper : helper.IsBuiltin)
    (registry : Nat) (name : String) : bounds.Holds (store.registerHelper registry name helper) := by
  apply h.setHelpers registry store.freshHelpers
  intro other found hget
  rw [Registry.get?_register] at hget
  split at hget
  · obtain rfl := Option.some.inj hget
    exact hhelper
  · exact h.helpers registry other found hget

theorem newPartials (h : bounds.Holds store) : bounds.Holds store.newPartials.2 where
  helpers := h.helpers
  partials := by
    intro other name entry hfound
    rw [Store.get?_newPartials] at hfound
    split at hfound
    · cases hfound
    · exact h.partials other name entry hfound

/-- A partial that is found is within the bounds, also if it was a source. -/
theorem finds {outcome : Outcome Template} (h : bounds.Holds store)
    (hcovers : bounds.Covers frame.environment)
    (hfinds : frame.Finds .anew name store (outcome, after)) :
    outcome.Gives bounds.Admits ∧ bounds.Holds after := by
  cases hfinds with
  | missing => exact ⟨trivial, h⟩
  | compiled found => exact ⟨h.partials _ name _ found, h⟩
  | unavailable => exact ⟨trivial, h⟩
  | rejected => exact ⟨trivial, h.congr rfl rfl⟩
  | @accepted source compiler spec template made found given answer makes =>
      have hsource : bounds.sources source := h.partials _ name _ found
      have hspec := hcovers.compiles source spec hsource ⟨compiler, _, given, answer⟩
      cases makes
      have hadmits : bounds.Admits ((store.attempted ⟨store.partialHome frame name, name,
          true⟩).newTemplate frame.environment spec).1 := ⟨hcovers, hspec, rfl⟩
      have hmade : bounds.Holds ((store.attempted ⟨store.partialHome frame name, name,
          true⟩).newTemplate frame.environment spec).2 := h.congr rfl rfl
      refine ⟨hadmits, hmade.registerPartial ?_ _ _⟩
      exact hadmits

end Holds

theorem partialTemplate_ends (hcovers : bounds.Covers frame.environment) (name : String) :
    Ending .anew bounds.Holds bounds.Admits fun _ => frame.partialTemplate .anew name := by
  apply Ending.alone
  intro store hstore
  exact hstore.finds hcovers (frame.finds_partialTemplate .anew name store)

/-- A frame where references to partials end grounds whatever is rendered
there. -/
theorem grounds {template : Template} {options : RenderOptions} (hadmits : bounds.Admits template)
    (hpartials : ∀ (found : Template) context, bounds.Admits found →
      Ending .anew bounds.Holds (fun _ => True)
        fun worker => worker (.template found context options.nested)) :
    Frame.Grounds bounds.Holds ⟨template, options⟩ where
  quiet s t hs hquiet := hs.quiet hquiet
  programs s fresh hs := hs.congr rfl rfl
  helpers := by
    intro s name helper hs hfound
    obtain ⟨registry, hregistered⟩ := Store.helper?_mem hfound
    exact hs.helpers registry name helper hregistered
  noop := hadmits.noop
  partials := by
    intro name context
    apply (partialTemplate_ends hadmits.covers name).bind
    exact fun found hfound => hpartials found context hfound

theorem checkPartials_ends (names : List String) :
    Ending .anew bounds.Holds (fun _ => True) fun _ => Page.checkPartials names := by
  induction names with
  | nil => exact .pure trivial
  | cons name rest ih =>
      unfold Page.checkPartials
      split
      · exact ih
      · exact .fail _

theorem page_ends (hgrounds : frame.Grounds bounds.Holds) {elements : List Source.Element}
    (h : Source.Ends elements) (context : Value) :
    Ending .anew bounds.Holds (fun _ => True)
      fun worker => Page.render worker frame elements context := by
  have hlook : ∀ view : Store → List String, Ending .anew bounds.Holds (fun _ => True)
      fun _ => Render.look view := fun _ => .look fun _ _ => trivial
  have hoptions := HelperOptions.ofFrame_ends hgrounds
  have hanswers : frame.Answers .anew bounds.Holds :=
    ⟨hgrounds.quiet, Frame.callHelper_ends hgrounds hoptions, hgrounds.partials⟩
  unfold Page.render
  apply (hlook _).bind
  intro helpers _
  apply (hlook _).bind
  intro partials _
  apply (checkPartials_ends partials).bind
  intro _ _
  apply (Ending.note hgrounds.quiet _).bind
  intro _ _
  apply (Ending.tally hgrounds.quiet _).bind
  intro _ _
  exact (h .anew bounds.Holds frame context.toJson.1 hanswers).withPen hgrounds.quiet

theorem frame_ends {template : Template} {options : RenderOptions}
    (hadmits : bounds.Admits template)
    (hgrounds : Frame.Grounds bounds.Holds ⟨template, options⟩) (context : Value) :
    Ending .anew bounds.Holds (fun _ => True)
      fun worker => Frame.render ⟨template, options⟩ worker context := by
  have hspec := hadmits.spec
  unfold Frame.render
  dsimp only
  generalize template.spec = spec at hspec
  cases spec with
  | nodes nodes => exact Frame.ends_of (Scene.nodes_end hgrounds nodes) _ rfl rfl
  | page elements => exact page_ends hgrounds hspec context

/-- A template ends by induction on how many partials may still be opened inside
each other. One that lies below the limit is refused. -/
theorem template_ends (room : Nat) {template : Template} {options : RenderOptions}
    (hadmits : bounds.Admits template) (hroom : bounds.limit < options.depth + room)
    (context : Value) :
    Ending .anew bounds.Holds (fun _ => True)
      fun worker => worker (.template template context options) := by
  induction room generalizing template options context with
  | zero =>
      have hdeep : template.environment.settings.maxPartialDepth < options.depth := by
        have := hadmits.covers.depth
        omega
      apply Ending.task
      simp only [Task.step, Template.render, hdeep, if_true]
      apply (Ending.note (fun _ _ hs => hs.quiet) _).bind
      exact fun _ _ => .fail _
  | succ room ih =>
      have hpartials : ∀ (found : Template) context, bounds.Admits found →
          Ending .anew bounds.Holds (fun _ => True)
            fun worker => worker (.template found context options.nested) := by
        intro found context hfound
        apply ih hfound
        rw [RenderOptions.nested_depth]
        omega
      have hnote : ∀ diagnostic, Ending .anew bounds.Holds (fun _ => True)
          fun _ => Render.note diagnostic := Ending.note fun _ _ hs => hs.quiet
      have hframe := frame_ends hadmits (grounds hadmits hpartials) context
      apply Ending.task
      simp only [Task.step, Template.render]
      split
      · apply (hnote _).bind
        exact fun _ _ => .fail _
      · apply (hnote _).bind
        intro _ _
        apply hframe.withFrame
        · exact fun store hstore => hstore.congr rfl rfl
        · exact fun store frames hstore => hstore.congr rfl rfl

/-- An operation that stays within the bounds. -/
structure Allows (operation : Operation) : Prop where
  helpers : ∀ helper, operation.BringsHelper helper → helper.IsBuiltin
  makes : ∀ environment spec, operation = .make environment spec →
    bounds.Covers environment ∧ spec.Ends
  sources : ∀ registry name source, operation = .registerSource registry name source →
    bounds.sources source

/-- A host that has done nothing beyond the bounds. -/
structure Host (bounds : Bounds) (host : Stencil.Host) : Prop where
  store : bounds.Holds host.store
  templates : ∀ template ∈ host.templates, bounds.Admits template

/-- An operation that ends, with the host within the bounds. If it is a render,
that gives a text or fails. -/
def Step (bounds : Bounds) (host : Stencil.Host) (operation : Operation) : Prop :=
  ∃ outcome next, outcome ≠ some .exhausted ∧ bounds.Host next ∧
    ∃ least, ∀ levels, least ≤ levels → host.step .anew levels operation = (outcome, next)

/-- What renders nothing ends at once. -/
theorem Step.of_still {host next : Stencil.Host} {operation : Operation}
    (hstep : ∀ levels, host.step .anew levels operation = (none, next))
    (hnext : bounds.Host next) : bounds.Step host operation :=
  ⟨none, next, by simp, hnext, 0, fun levels _ => hstep levels⟩

theorem step_ends {host : Stencil.Host} (h : bounds.Host host) {operation : Operation}
    (hallows : bounds.Allows operation) : bounds.Step host operation := by
  obtain ⟨hstore, htemplates⟩ := h
  cases operation with
  | openHelpers registry =>
      have hbuiltin := fun name helper hget => hallows.helpers helper ⟨name, hget⟩
      apply Step.of_still fun _ => rfl
      exact ⟨hstore.setHelpers _ _ registry hbuiltin, htemplates⟩
  | openPartials =>
      apply Step.of_still fun _ => rfl
      exact ⟨hstore.newPartials, htemplates⟩
  | make environment spec =>
      obtain ⟨hcovers, hspec⟩ := hallows.makes environment spec rfl
      apply Step.of_still fun _ => rfl
      constructor
      · exact hstore.congr rfl rfl
      · intro template member
        rcases List.mem_append.mp member with hold | hnew
        · exact htemplates template hold
        · obtain rfl := List.mem_singleton.mp hnew
          exact ⟨hcovers, hspec, rfl⟩
  | registerHelper registry name helper =>
      apply Step.of_still fun _ => rfl
      exact ⟨hstore.registerHelper (hallows.helpers helper rfl) registry name, htemplates⟩
  | registerSource registry name source =>
      have hsource : bounds.Entry (.source source) := hallows.sources registry name source rfl
      apply Step.of_still fun _ => rfl
      exact ⟨hstore.registerPartial hsource registry name, htemplates⟩
  | registerTemplate registry name index =>
      cases hindex : host.templates[index]? with
      | none =>
          have hstep : ∀ levels, host.step .anew levels (.registerTemplate registry name index) =
              (none, host) := fun _ => by simp only [Host.step, hindex]
          exact .of_still hstep ⟨hstore, htemplates⟩
      | some template =>
          have hstep : ∀ levels, host.step .anew levels (.registerTemplate registry name index) =
              (none, { host with
                store := host.store.registerPartial registry name (.compiled template) }) :=
            fun _ => by simp only [Host.step, hindex]
          have hentry : bounds.Entry (.compiled template) :=
            htemplates template (List.mem_of_getElem? hindex)
          exact .of_still hstep ⟨hstore.registerPartial hentry registry name, htemplates⟩
  | render index context helpers partials data =>
      cases hindex : host.templates[index]? with
      | none =>
          have hstep : ∀ levels,
              host.step .anew levels (.render index context helpers partials data) =
                (none, host) := fun _ => by simp only [Host.step, hindex]
          exact .of_still hstep ⟨hstore, htemplates⟩
      | some template =>
          have hadmits := htemplates template (List.mem_of_getElem? hindex)
          let options : RenderOptions := ⟨helpers, partials, data, 0⟩
          have hroom : bounds.limit < options.depth + (bounds.limit + 1) := by omega
          obtain ⟨outcome, after, ⟨least, hleast⟩, hgives, hafter⟩ :=
            template_ends (bounds.limit + 1) hadmits hroom context host.store hstore
          refine ⟨some outcome, { host with store := after }, ?_, ⟨hafter, htemplates⟩, least, ?_⟩
          · rintro ⟨⟩
            exact hgives
          · intro levels hlevels
            have hrender : Task.run .anew levels (.template template context options) host.store =
                (outcome, after) := hleast levels hlevels
            simp only [Host.step, hindex]
            rw [hrender]

/-- So do operations one after another. -/
theorem run_ends {host : Stencil.Host} (h : bounds.Host host) {operations : List Operation}
    (hallows : ∀ operation ∈ operations, bounds.Allows operation) :
    ∃ outcomes last, .exhausted ∉ outcomes ∧ bounds.Host last ∧
      ∃ least, ∀ levels, least ≤ levels → host.run .anew levels operations = (outcomes, last) := by
  induction operations generalizing host with
  | nil => exact ⟨[], host, by simp, h, 0, fun _ _ => rfl⟩
  | cons operation rest ih =>
      obtain ⟨outcome, next, hends, hnext, least, hleast⟩ :=
        step_ends h (hallows operation List.mem_cons_self)
      obtain ⟨outcomes, last, hothers, hlast, least', hleast'⟩ :=
        ih hnext fun other member => hallows other (List.mem_cons_of_mem _ member)
      refine ⟨outcome.toList ++ outcomes, last, ?_, hlast, max least least', ?_⟩
      · simp only [List.mem_append, Option.mem_toList, not_or]
        exact ⟨fun hexhausted => hends hexhausted, hothers⟩
      · intro levels hlevels
        simp only [Host.run, hleast levels (by omega), hleast' levels (by omega)]

end Bounds

/-- The pages that operations may have a host render: those that it makes
templates of, and those that its compilers make of the sources it registers. -/
def Operation.Renders (operations : List Operation) (elements : List Source.Element) : Prop :=
  ∃ environment spec, .make environment spec ∈ operations ∧
    (spec = .page elements ∨ ∃ registry name source,
      .registerSource registry name source ∈ operations ∧
        environment.Compiles source (.page elements))

/-- The deepest that the settings of any environment let partials lie. -/
def Operation.limit : List Operation → Nat
  | [] => 0
  | .make environment _ :: rest =>
    max environment.settings.maxPartialDepth (Operation.limit rest)
  | _ :: rest => Operation.limit rest

theorem Operation.le_limit {operations : List Operation} {environment : Environment} {spec : Spec}
    (h : .make environment spec ∈ operations) :
    environment.settings.maxPartialDepth ≤ Operation.limit operations := by
  induction operations with
  | nil => simp at h
  | cons operation rest ih =>
      rcases List.mem_cons.mp h with rfl | hrest
      · simp only [Operation.limit]
        omega
      · have hle := ih hrest
        cases operation <;> simp only [Operation.limit] <;> omega

/-- The bounds that operations keep among themselves. -/
def Bounds.of (operations : List Operation) : Bounds where
  limit := Operation.limit operations
  sources source := ∃ registry name, .registerSource registry name source ∈ operations

theorem Bounds.of_allows {operations : List Operation}
    (hbuiltin : ∀ operation ∈ operations, ∀ helper, operation.BringsHelper helper →
      helper.IsBuiltin)
    (hpages : ∀ elements, Operation.Renders operations elements → Source.Ends elements) :
    ∀ operation ∈ operations, (Bounds.of operations).Allows operation := by
  intro operation member
  constructor
  · exact hbuiltin operation member
  · rintro environment spec rfl
    refine ⟨⟨Operation.le_limit member, ?_⟩, ?_⟩
    · rintro source other ⟨registry, name, hsource⟩ hcompiles
      cases other with
      | nodes nodes => trivial
      | page elements =>
          apply hpages elements
          exact ⟨environment, spec, member, .inr ⟨registry, name, source, hsource, hcompiles⟩⟩
    · cases spec with
      | nodes nodes => trivial
      | page elements => exact hpages elements ⟨environment, _, member, .inl rfl⟩
  · rintro registry name source rfl
    exact ⟨registry, name, member⟩

/-- A template that does nothing but refer to itself, by the name under which it
is found there. -/
structure Template.Circles (template : Template) (name : String) (partials : Option Nat)
    (store : Store) : Prop where
  spec : template.spec = .nodes [.inclusion name (.this none)]
  found : ∀ frame : Frame, frame.template = template → frame.options.partials = partials →
    store.entry? frame name = some (.compiled template)

/-- Such a template is opened as often as its settings allow, and then
refused. -/
theorem Template.Circles.refused {template : Template} {name : String} {partials : Option Nat}
    (room : Nat) {options : RenderOptions} {store : Store}
    (h : template.Circles name partials store) (hpartials : options.partials = partials)
    (hroom : options.depth + room = template.environment.settings.maxPartialDepth + 1)
    (context : Value) :
    ∃ after, Render.EndsIn (fun levels => Task.run {} levels (.template template context options))
      store (.failed (.tooDeep (template.environment.settings.maxPartialDepth + 1)
        template.environment.settings.maxPartialDepth), after) := by
  induction room generalizing options store with
  | zero =>
      have hdepth : template.environment.settings.maxPartialDepth + 1 = options.depth := by omega
      have hdeep : template.environment.settings.maxPartialDepth < options.depth := by omega
      have hends := fun levels =>
        template.render_refused (Task.run {} levels) context store hdeep
      rw [hdepth]
      exact ⟨_, Render.EndsIn.step (.always hends)⟩
  | succ room ih =>
      let entered := (store.note (.rendering options.depth)).enter ⟨template, options⟩
      have hentry : entered.entry? ⟨template, options⟩ name = some (.compiled template) :=
        h.found _ rfl hpartials
      have hinside : template.Circles name partials entered := ⟨h.spec, h.found⟩
      have hdeeper : options.nested.depth + room =
          template.environment.settings.maxPartialDepth + 1 := by
        rw [RenderOptions.nested_depth]
        omega
      have hnested : options.nested.partials = partials := hpartials
      obtain ⟨after, hends⟩ := ih hinside hnested hdeeper
      have hfound : Frame.partialTemplate ⟨template, options⟩ {} name entered = _ :=
        Frame.partialTemplate_compiled hentry
      have hpartial := Surroundings.endsIn_invokePartial hfound hends
      have hnodes : Render.EndsIn (fun levels => Task.run {} levels (.nodes
          ⟨⟨template, options⟩, context, context, options.data, [], none⟩
          [.inclusion name (.this none)])) entered
          (.failed (.tooDeep (template.environment.settings.maxPartialDepth + 1)
            template.environment.settings.maxPartialDepth), after) := by
        apply Render.EndsIn.step
        apply hpartial.congr
        intro levels
        simp only [Task.step, Render.concat_single]
        rfl
      refine ⟨_, Surroundings.endsIn_template (by omega) (hnodes.congr fun levels => ?_)⟩
      simp only [Frame.render, h.spec]
      rfl

/-- Every render ends. Whatever helpers of the runtime a host registers, and
whatever partials, in circles or not, enough levels let each of its renders give
a text or fail, and with more levels it ends in the same way. It rests on the
pages to end when their calls into the registries do. And nothing but the
settings bounds a circle: what refers to itself is opened until they refuse
it. -/
theorem Host.renders_end (blocks : Spec → Nat → List Node) (operations : List Operation)
    (huniform : Operation.Uniform False blocks operations)
    (hbuiltin : ∀ operation ∈ operations, ∀ helper, operation.BringsHelper helper →
      helper.IsBuiltin)
    (hpages : ∀ elements, Operation.Renders operations elements → Source.Ends elements) :
    (∃ outcomes, .exhausted ∉ outcomes ∧
      ∃ least, ∀ levels, least ≤ levels →
        (Host.empty.run {} levels operations).1 = outcomes) ∧
    ∀ (template : Template) (name : String) (context : Value) (options : RenderOptions)
        (store : Store), template.Circles name options.partials store → options.depth = 0 →
      let limit := template.environment.settings.maxPartialDepth
      ∃ after, Render.EndsIn
        (fun levels => Task.run {} levels (.template template context options)) store
        (.failed (.tooDeep (limit + 1) limit), after) := by
  constructor
  · have hempty : (Bounds.of operations).Host .empty := ⟨.empty, by simp [Host.empty]⟩
    obtain ⟨outcomes, last, hends, _, least, hleast⟩ :=
      Bounds.run_ends hempty (Bounds.of_allows hbuiltin hpages)
    refine ⟨outcomes, hends, least, fun levels hlevels => ?_⟩
    -- What templates keep makes no difference to how renders end.
    let con := Conventions.of huniform
    have hfollows : ∀ operation ∈ operations, con.Follows operation :=
      fun operation member => Conventions.of_follows huniform member
    have hsame := (KeptPrograms.serves con).run (KeptPrograms.hosts_empty con) hfollows levels
    rw [hsame.1, hleast levels hlevels]
  · intro template name context options store hcircles hroot limit
    exact hcircles.refused (limit + 1) rfl (by omega) context

/-- The helpers that environments start with are built in. -/
theorem Builtin.registry_isBuiltin {name : String} {helper : Helper}
    (h : Builtin.registry.get? name = some helper) : helper.IsBuiltin := by
  suffices hfold : ∀ (builtins : List Builtin) (registry : Registry Helper),
      (∀ name helper, registry.get? name = some helper → helper.IsBuiltin) →
      ∀ name helper, (builtins.foldl (fun registry builtin =>
        registry.register builtin.name ⟨.builtin builtin, none⟩) registry).get? name = some helper →
        helper.IsBuiltin by
    apply hfold Builtin.all .empty _ name helper h
    intro other found hget
    cases hget
  intro builtins
  induction builtins with
  | nil => exact fun registry hregistry => hregistry
  | cons builtin rest ih =>
      intro registry hregistry
      apply ih
      intro other found hget
      rw [Registry.get?_register] at hget
      split at hget
      · obtain rfl := Option.some.inj hget
        exact ⟨trivial, by simp⟩
      · exact hregistry other found hget

namespace TwoPartials

def environment : Environment := ⟨0, 0, { maxPartialDepth := 3 }, some .pages, .standard⟩

def block : List Node := [.inclusion "page" (.this none)]

/-- A list that shows its parts through a page, which includes the list again. -/
def list : Spec :=
  .nodes [.text "(", .call "each" (.this (some "parts"))
    (.mk false (some (.cached 0 block none)) none none false), .text ")"]

def operations : List Operation :=
  [.openHelpers Builtin.registry, .openPartials, .make environment list,
    .registerTemplate 0 "list" 0, .registerSource 0 "page" "\x7b\x7b> list\x7d\x7d",
    .render 0 (.object [("parts", .array [.object [("parts", .array [])], .null])]) none none
      none]

theorem builtin : ∀ operation ∈ operations, ∀ helper, operation.BringsHelper helper →
    helper.IsBuiltin := by
  intro operation member helper hbrings
  simp only [operations, List.mem_cons, List.not_mem_nil, or_false] at member
  rcases member with rfl | rfl | rfl | rfl | rfl | rfl
  · obtain ⟨name, hget⟩ := hbrings
    exact Builtin.registry_isBuiltin hget
  all_goals exact hbrings.elim

theorem uniform : Operation.Uniform False (fun _ _ => block) operations := by
  rintro spec ⟨operation, member, hbrings⟩
  constructor
  · simp only [operations, List.mem_cons, List.not_mem_nil, or_false] at member
    rcases member with rfl | rfl | rfl | rfl | rfl | rfl
    case inr.inr.inl =>
      rcases hbrings with rfl | ⟨compiler, attempts, source, hcompiler, hanswer⟩
      · simp [list, block, Licence.AllowsSpec, Licence.AllowsNodes, Licence.AllowsNode,
          Licence.AllowsOptions, Licence.AllowsProgram?, Licence.AllowsProgram,
          Licence.AllowsExpr, Licence.AllowsExpr?, Licence.uniform]
      · exact Compiler.pages_offers rfl source spec ⟨compiler, attempts, hcompiler, hanswer⟩
    all_goals exact hbrings.elim
  · rintro helper ⟨other, member', hbrings'⟩
    have hbuiltin := builtin other member' helper hbrings'
    obtain ⟨action, negation⟩ := helper
    constructor
    · cases action with
      | builtin _ => trivial
      | nodes body => exact hbuiltin.1.elim
    · intro action haction
      cases action with
      | builtin _ => trivial
      | nodes body => exact (hbuiltin.2 _ haction).elim

theorem standIn_list : Page.standIn? "list" = some [.expression false
    (.mk (.word Page.dispatcher) [.literal (.string "list"), .path ⟨"this", []⟩] [])] := by cbv

theorem read_page : Source.read? "\x7b\x7b> list\x7d\x7d" =
    some [.inclusion (.mk (.word "list") [] []) ⟨"", true⟩] := by cbv

theorem pages (elements : List Source.Element)
    (h : Operation.Renders operations elements) : Source.Ends elements := by
  obtain ⟨made, spec, member, hrenders⟩ := h
  obtain ⟨rfl, rfl⟩ : made = environment ∧ spec = list := by
    simpa [operations] using member
  rcases hrenders with hlist | ⟨registry, name, source, hsource, compiler, attempts, hgiven, hread⟩
  · cases hlist
  · obtain ⟨_, _, rfl⟩ : registry = 0 ∧ name = "page" ∧
        source = "\x7b\x7b> list\x7d\x7d" := by simpa [operations] using hsource
    obtain rfl := Option.some.inj hgiven
    simp only [Compiler.pages, read_page] at hread
    cases hread
    apply Source.IncludesOthers.ends
    refine ⟨⟨"list", rfl, by decide, fun standIn hstandIn => ?_⟩, trivial⟩
    obtain rfl := Option.some.inj (standIn_list.symm.trans hstandIn)
    exact ⟨trivial, trivial⟩

/-- A template that includes itself where three partials may lie. -/
def itself : Template := ⟨0, environment, .nodes [.inclusion "p" (.this none)], ⟨0, [], none, []⟩⟩

def store : Store := Store.empty.registerPartial 0 "p" (.compiled itself)

theorem circles : itself.Circles "p" none store where
  spec := rfl
  found := by
    rintro ⟨template, options⟩ rfl hnone
    have hpartials : options.partials = none := hnone
    have hhome : store.partialHome ⟨itself, options⟩ "p" = 0 := by
      simp only [Store.partialHome, hpartials]
      rfl
    simp only [Store.entry?, hhome]
    rfl

end TwoPartials

/-- A list and a page that include each other end, and what includes itself is
refused as the fourth of three partials. -/
theorem Host.renders_end_in_circle :
    (∃ outcomes, .exhausted ∉ outcomes ∧
      ∃ least, ∀ levels, least ≤ levels →
        (Host.empty.run {} levels TwoPartials.operations).1 = outcomes) ∧
    ∃ after, Render.EndsIn
      (fun levels => Task.run {} levels (.template TwoPartials.itself .null {}))
      TwoPartials.store (.failed (.tooDeep 4 3), after) := by
  have hends := Host.renders_end (fun _ _ => TwoPartials.block) TwoPartials.operations
    TwoPartials.uniform TwoPartials.builtin TwoPartials.pages
  exact ⟨hends.1, hends.2 TwoPartials.itself "p" .null {} _ TwoPartials.circles rfl⟩

end Stencil
