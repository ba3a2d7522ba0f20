import Stencil.Proofs.Nesting

/-!
Chains of partials. In a straight chain every template does one thing that may
fail, which is to refer to the next partial. Such a chain renders exactly when
its last partial lies no deeper than the settings allow; a longer one fails,
and its failure tells of the first partial that lies too deep. What a render
ends in is what it gives once enough levels are granted.
-/

namespace Stencil

/-- What an action ends in once enough levels are granted. -/
def Render.EndsIn (action : Nat → Render α) (store : Store) (result : Outcome α × Store) : Prop :=
  ∃ least, ∀ levels, least ≤ levels → action levels store = result

namespace Render.EndsIn

variable {action : Nat → Render α} {next : Nat → α → Render β} {store after : Store}

theorem always {result : Outcome α × Store} (h : ∀ levels, action levels store = result) :
    EndsIn action store result :=
  ⟨0, fun levels _ => h levels⟩

theorem congr {action' : Nat → Render α} {store' : Store} {result : Outcome α × Store}
    (h : EndsIn action' store' result)
    (hsame : ∀ levels, action levels store = action' levels store') :
    EndsIn action store result := by
  obtain ⟨least, hleast⟩ := h
  refine ⟨least, fun levels hlevels => ?_⟩
  rw [hsame levels]
  exact hleast levels hlevels

theorem unique {first second : Outcome α × Store} (h : EndsIn action store first)
    (h' : EndsIn action store second) : first = second := by
  obtain ⟨m, hm⟩ := h
  obtain ⟨n, hn⟩ := h'
  rw [← hm (max m n) (Nat.le_max_left m n), ← hn (max m n) (Nat.le_max_right m n)]

theorem bind {a : α} {result : Outcome β × Store} (h : EndsIn action store (.done a, after))
    (hnext : EndsIn (fun levels => next levels a) after result) :
    EndsIn (fun levels => action levels >>= next levels) store result := by
  obtain ⟨m, hm⟩ := h
  obtain ⟨n, hn⟩ := hnext
  refine ⟨max m n, fun levels hlevels => ?_⟩
  show (action levels >>= next levels) store = result
  rw [Render.bind_run, hm levels (by omega)]
  exact hn levels (by omega)

theorem bind_failed {e : RenderError} (h : EndsIn action store (.failed e, after)) :
    EndsIn (fun levels => action levels >>= next levels) store (.failed e, after) := by
  obtain ⟨least, hleast⟩ := h
  refine ⟨least, fun levels hlevels => ?_⟩
  show (action levels >>= next levels) store = _
  rw [Render.bind_run, hleast levels hlevels]

theorem map {a : α} (f : α → β) (h : EndsIn action store (.done a, after)) :
    EndsIn (fun levels => f <$> action levels) store (.done (f a), after) :=
  h.bind (.always fun _ => rfl)

/-- A task ends in what its first level ends in. -/
theorem step {reuse : Reuse} {task : Task} {result : Outcome String × Store}
    (h : EndsIn (fun levels => Task.step reuse (Task.run reuse levels) task) store result) :
    EndsIn (fun levels => Task.run reuse levels task) store result := by
  obtain ⟨least, hleast⟩ := h
  refine ⟨least + 1, fun levels hlevels => ?_⟩
  obtain ⟨m, rfl⟩ : ∃ m, levels = m + 1 := ⟨levels - 1, by omega⟩
  exact hleast m (by omega)

/-- The first level of a task ends in what the task ends in. -/
theorem unstep {task : Task} {result : Outcome String × Store}
    (h : EndsIn (fun levels => Task.run {} levels task) store result) :
    EndsIn (fun levels => Task.step {} (Task.run {} levels) task) store result := by
  obtain ⟨least, hleast⟩ := h
  exact ⟨least, fun levels hlevels => hleast (levels + 1) (by omega)⟩

theorem withFrame {frame : Frame} {outcome : Outcome α}
    (h : EndsIn action (store.enter frame) (outcome, after)) :
    EndsIn (fun levels => Render.withFrame frame (action levels)) store
      (outcome, { after with frames := store.frames }) := by
  obtain ⟨least, hleast⟩ := h
  refine ⟨least, fun levels hlevels => ?_⟩
  show Render.withFrame frame (action levels) store = _
  rw [Render.withFrame_run, hleast levels hlevels]

end Render.EndsIn

/-- A failure that tells of another one: that one itself, or the failure of a
page whose reason it is. -/
inductive RenderError.Tells (e : RenderError) : RenderError → Prop
  | itself : Tells e e
  | page {told : RenderError} (tells : Tells e told) : Tells e (.ofPage (some told.message))

theorem RenderError.Tells.trans {e told last : RenderError} (h : e.Tells told)
    (h' : told.Tells last) : e.Tells last := by
  induction h' with
  | itself => exact h
  | page _ ih => exact .page ih

/-- What becomes of the entry of a partial in an environment: the template that
it is, or the one that the compiler makes of it whenever it is asked. -/
inductive Partial.Gives (environment : Environment) : Partial → Spec → Prop
  | compiled (template : Template) (bound : template.environment = environment) :
      Gives environment (.compiled template) template.spec
  | source (text : String) {compiler : Compiler} {spec : Spec}
      (given : environment.compiler = some compiler)
      (steady : ∀ attempts, compiler.answer attempts text = .ok spec) :
      Gives environment (.source text) spec

/-- The surroundings of a chain: the environment of its templates, the
registries that its render was begun with, what the helper registries hold, the
names in the partial registries, and the partials that the chain refers to with
what they render. -/
structure Surroundings where
  environment : Environment
  helpers : Option Nat
  partials : Option Nat
  registered : Table (Registry Helper)
  names : Nat → List String
  links : List (String × Spec)

namespace Surroundings

variable (around : Surroundings)

structure Holds (frame : Frame) : Prop where
  environment : frame.environment = around.environment
  helpers : frame.options.helpers = around.helpers
  partials : frame.options.partials = around.partials

/-- A store in which the chain can be rendered. -/
structure Ready (store : Store) : Prop where
  helpers : store.helpers = around.registered
  names : ∀ registry, (store.partialsOf registry).names = around.names registry
  links : ∀ link ∈ around.links, ∀ frame, around.Holds frame →
    ∃ entry, store.entry? frame link.1 = some entry ∧
      entry.Gives around.environment link.2

/-- What renders without failing, and leaves the chain as it is. -/
def Settles (spec : Spec) : Prop :=
  ∀ frame context store, around.Holds frame → frame.template.spec = spec → around.Ready store →
    ∃ text after, around.Ready after ∧
      Render.EndsIn (fun levels => frame.render (Task.run {} levels) context) store
        (.done text, after)

/-- What renders one partial, and fails only when that one fails. -/
def Relays (spec : Spec) (name : String) : Prop :=
  ∀ frame context store, around.Holds frame → frame.template.spec = spec → around.Ready store →
    ∃ inner before, around.Ready before ∧
      (∀ text found, around.Ready found →
        Render.EndsIn (fun levels => frame.invokePartial {} (Task.run {} levels) name inner) before
          (.done text, found) →
        ∃ text after, around.Ready after ∧
          Render.EndsIn (fun levels => frame.render (Task.run {} levels) context) store
            (.done text, after)) ∧
      ∀ e found,
        Render.EndsIn (fun levels => frame.invokePartial {} (Task.run {} levels) name inner) before
          (.failed e, found) →
        ∃ told after, e.Tells told ∧
          Render.EndsIn (fun levels => frame.render (Task.run {} levels) context) store
            (.failed told, after)

/-- A template at the head of a straight chain of so many partials. -/
inductive Straight : Nat → Spec → Prop
  | last {spec : Spec} (settles : around.Settles spec) : Straight 0 spec
  | link {n : Nat} {spec next : Spec} {name : String} (relays : around.Relays spec name)
      (registered : (name, next) ∈ around.links) (rest : Straight n next) :
      Straight (n + 1) spec

variable {around}

theorem Ready.congr {s t : Store} (h : around.Ready s) (hhelpers : t.helpers = s.helpers)
    (hpartials : t.partials = s.partials) : around.Ready t where
  helpers := hhelpers.trans h.helpers
  names := by
    intro registry
    unfold Store.partialsOf
    rw [hpartials]
    exact h.names registry
  links := by
    intro link member frame hframe
    rw [Store.entry?_congr hpartials]
    exact h.links link member frame hframe

/-- Keeping the template of a source leaves a chain ready: what the template
renders is what the source gave. -/
theorem Ready.settled {store : Store} {frame : Frame} {name source : String} {template : Template}
    {compiler : Compiler} {attempts : Nat} (h : around.Ready store)
    (hfound : store.entry? frame name = some (.source source))
    (hcompiler : around.environment.compiler = some compiler)
    (hanswer : compiler.answer attempts source = .ok template.spec)
    (hbound : template.environment = around.environment) :
    around.Ready
      (store.registerPartial (store.partialHome frame name) name (.compiled template)) where
  helpers := h.helpers
  names := by
    intro registry
    have hcontains : (store.partialsOf (store.partialHome frame name)).contains name = true :=
      Option.isSome_of_eq_some hfound
    rw [Store.partialsOf_registerPartial]
    split
    case isTrue hsame => rw [Registry.names_register hcontains, hsame, h.names]
    case isFalse => exact h.names registry
  links := by
    intro link member other hother
    obtain ⟨entry, hentry, hgives⟩ := h.links link member other hother
    have hcontains : (store.partialsOf (store.partialHome frame name)).contains name = true :=
      Option.isSome_of_eq_some hfound
    have hhome : ∀ frame' name',
        (store.registerPartial (store.partialHome frame name) name (.compiled template)).partialHome
          frame' name' = store.partialHome frame' name' :=
      Store.partialHome_registerPartial hcontains _
    unfold Store.entry? at hentry ⊢
    rw [hhome, Store.get?_registerPartial]
    by_cases hsame : store.partialHome other link.1 = store.partialHome frame name ∧ link.1 = name
    · rw [if_pos hsame]
      -- The link refers to the source that was compiled.
      have hsource : some entry = some (.source source) := by
        rw [← hentry, hsame.1, hsame.2]
        exact hfound
      obtain rfl := Option.some.inj hsource
      refine ⟨_, rfl, ?_⟩
      generalize link.2 = spec at hgives
      cases hgives with
      | source _ given steady =>
          obtain rfl := Option.some.inj (given.symm.trans hcompiler)
          have hspec := (steady attempts).symm.trans hanswer
          obtain rfl := Except.ok.inj hspec
          exact .compiled template hbound
    · rw [if_neg hsame]
      exact ⟨entry, hentry, hgives⟩

/-- The template of a link is found, and what it renders is what the link
says. -/
theorem Ready.found {store : Store} {frame : Frame} {link : String × Spec}
    (h : around.Ready store) (hframe : around.Holds frame) (member : link ∈ around.links) :
    ∃ template found, frame.partialTemplate {} link.1 store = (.done template, found) ∧
      around.Ready found ∧ template.environment = around.environment ∧
      template.spec = link.2 := by
  obtain ⟨entry, hentry, hgives⟩ := h.links link member frame hframe
  obtain ⟨name, spec⟩ := link
  cases hgives with
  | compiled template bound =>
      exact ⟨template, store, Frame.partialTemplate_compiled hentry, h, bound, rfl⟩
  | source text given steady =>
      have hcompiler := hframe.environment ▸ given
      refine ⟨_, _, Frame.partialTemplate_accepted hentry hcompiler (steady _), ?_,
        hframe.environment, rfl⟩
      have hready : around.Ready
          ((store.attempted ⟨store.partialHome frame name, name, true⟩).newTemplate
            frame.environment spec).2 := h.congr rfl rfl
      exact hready.settled hentry given (steady 0) hframe.environment

/-- A render of a template that does not lie too deep ends as the render of its
frame does. -/
theorem endsIn_template {template : Template} {context : Value} {options : RenderOptions}
    {store after : Store} {outcome : Outcome String}
    (hdepth : options.depth ≤ template.environment.settings.maxPartialDepth)
    (h : Render.EndsIn
      (fun levels => Frame.render ⟨template, options⟩ (Task.run {} levels) context)
      ((store.note (.rendering options.depth)).enter ⟨template, options⟩) (outcome, after)) :
    Render.EndsIn (fun levels => Task.run {} levels (.template template context options)) store
      (outcome, { after with frames := store.frames }) := by
  apply Render.EndsIn.step
  obtain ⟨least, hleast⟩ := Render.EndsIn.withFrame h
  refine ⟨least, fun levels hlevels => ?_⟩
  have hopened := template.render_opened (Task.run {} levels) context store hdepth
  exact hopened.trans (hleast levels hlevels)

/-- A reference to a partial ends as the render of its template does. -/
theorem endsIn_invokePartial {frame : Frame} {name : String} {context : Value}
    {template : Template} {store found : Store} {result : Outcome String × Store}
    (hfound : frame.partialTemplate {} name store = (.done template, found))
    (h : Render.EndsIn
      (fun levels => Task.run {} levels (.template template context frame.options.nested))
      found result) :
    Render.EndsIn (fun levels => frame.invokePartial {} (Task.run {} levels) name context) store
      result :=
  Render.EndsIn.bind (.always fun _ => hfound) h

/-- The frame of a partial of the chain belongs to the chain. -/
theorem Holds.nested {frame : Frame} {template : Template} (h : around.Holds frame)
    (hbound : template.environment = around.environment) :
    around.Holds ⟨template, frame.options.nested⟩ :=
  ⟨hbound, h.helpers, h.partials⟩

/-- A template that lies too deep is refused, whatever it refers to. -/
theorem Holds.refused {template : Template} {options : RenderOptions} {store : Store}
    (context : Value) (h : around.Holds ⟨template, options⟩)
    (hdepth : options.depth = around.environment.settings.maxPartialDepth + 1) :
    Render.EndsIn (fun levels => Task.run {} levels (.template template context options)) store
      (.failed (.tooDeep (around.environment.settings.maxPartialDepth + 1)
          around.environment.settings.maxPartialDepth),
        store.note (.depthExceeded (around.environment.settings.maxPartialDepth + 1)
          around.environment.settings.maxPartialDepth)) := by
  have henvironment : template.environment = around.environment := h.environment
  have hdeep : template.environment.settings.maxPartialDepth < options.depth := by
    rw [henvironment]
    omega
  refine Render.EndsIn.step (.always fun levels => ?_)
  have hend := template.render_refused (Task.run {} levels) context store hdeep
  rw [hdepth, henvironment] at hend
  exact hend

namespace Straight

variable {n : Nat} {spec : Spec}

/-- A straight chain whose last partial lies no deeper than the settings allow
renders. The induction follows the chain down from its head, each frame being
one deeper. -/
theorem renders (h : around.Straight n spec) :
    ∀ {template : Template} {options : RenderOptions} {store : Store} (context : Value),
      around.Holds ⟨template, options⟩ → template.spec = spec → around.Ready store →
      options.depth + n ≤ around.environment.settings.maxPartialDepth →
      ∃ text after, around.Ready after ∧
        Render.EndsIn (fun levels => Task.run {} levels (.template template context options))
          store (.done text, after) := by
  induction h with
  | last settles =>
      intro template options store context hholds hspec hready hdepth
      have hentered : around.Ready
          ((store.note (.rendering options.depth)).enter ⟨template, options⟩) :=
        hready.congr rfl rfl
      obtain ⟨text, after, hafter, hends⟩ := settles _ context _ hholds hspec hentered
      have hleft : around.Ready { after with frames := store.frames } := hafter.congr rfl rfl
      have henvironment : template.environment = around.environment := hholds.environment
      exact ⟨text, _, hleft, endsIn_template (henvironment ▸ hdepth) hends⟩
  | @link n spec next name relays registered rest ih =>
      intro template options store context hholds hspec hready hdepth
      have hentered : around.Ready
          ((store.note (.rendering options.depth)).enter ⟨template, options⟩) :=
        hready.congr rfl rfl
      have henvironment : template.environment = around.environment := hholds.environment
      obtain ⟨inner, before, hbefore, hdone, _⟩ := relays _ context _ hholds hspec hentered
      obtain ⟨partialTemplate, found, hfound, hfoundReady, hbound, hnext⟩ :=
        hbefore.found hholds registered
      have hdeeper : options.nested.depth + n ≤
          around.environment.settings.maxPartialDepth := by
        rw [RenderOptions.nested_depth]
        omega
      obtain ⟨inside, last, hlast, hinside⟩ :=
        ih inner (hholds.nested hbound) hnext hfoundReady hdeeper
      obtain ⟨text, after, hafter, hends⟩ :=
        hdone inside last hlast (endsIn_invokePartial hfound hinside)
      have hwithin : options.depth ≤ template.environment.settings.maxPartialDepth := by
        rw [henvironment]
        omega
      have hleft : around.Ready { after with frames := store.frames } := hafter.congr rfl rfl
      exact ⟨text, _, hleft, endsIn_template hwithin hends⟩

/-- A longer one fails, and the failure tells of the first partial that lies too
deep. -/
theorem fails (h : around.Straight n spec) :
    ∀ {template : Template} {options : RenderOptions} {store : Store} (context : Value),
      around.Holds ⟨template, options⟩ → template.spec = spec → around.Ready store →
      options.depth ≤ around.environment.settings.maxPartialDepth + 1 →
      around.environment.settings.maxPartialDepth < options.depth + n →
      ∃ told after,
        (RenderError.tooDeep (around.environment.settings.maxPartialDepth + 1)
          around.environment.settings.maxPartialDepth).Tells told ∧
        Render.EndsIn (fun levels => Task.run {} levels (.template template context options))
          store (.failed told, after) := by
  induction h with
  | last settles =>
      intro template options store context hholds _ _ hdepth hexceeds
      have htop : options.depth = around.environment.settings.maxPartialDepth + 1 := by omega
      exact ⟨_, _, .itself, hholds.refused context htop⟩
  | @link n spec next name relays registered rest ih =>
      intro template options store context hholds hspec hready hdepth hexceeds
      by_cases htop : options.depth = around.environment.settings.maxPartialDepth + 1
      -- Further down the chain nothing is looked at any more.
      · exact ⟨_, _, .itself, hholds.refused context htop⟩
      have hentered : around.Ready
          ((store.note (.rendering options.depth)).enter ⟨template, options⟩) :=
        hready.congr rfl rfl
      have henvironment : template.environment = around.environment := hholds.environment
      obtain ⟨inner, before, hbefore, _, hfailed⟩ := relays _ context _ hholds hspec hentered
      obtain ⟨partialTemplate, found, hfound, hfoundReady, hbound, hnext⟩ :=
        hbefore.found hholds registered
      have hdeeper : options.nested.depth ≤
          around.environment.settings.maxPartialDepth + 1 := by
        rw [RenderOptions.nested_depth]
        omega
      have hlonger : around.environment.settings.maxPartialDepth < options.nested.depth + n := by
        rw [RenderOptions.nested_depth]
        omega
      obtain ⟨inside, last, htells, hinside⟩ :=
        ih inner (hholds.nested hbound) hnext hfoundReady hdeeper hlonger
      obtain ⟨told, after, htold, hends⟩ :=
        hfailed inside last (endsIn_invokePartial hfound hinside)
      have hwithin : options.depth ≤ template.environment.settings.maxPartialDepth := by
        rw [henvironment]
        omega
      exact ⟨told, _, htells.trans htold, endsIn_template hwithin hends⟩

end Straight

end Surroundings

end Stencil
