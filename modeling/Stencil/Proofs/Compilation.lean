import Stencil.Host
import Stencil.Proofs.Keeping
import Stencil.Proofs.Upkeep

/-!
What becomes of the entry of a partial. A source stays where it is as long as
the compiler refuses it, and every reference tries it again. Once the compiler
has accepted it a template stands in its place, and the compiler does not see
it again. So the history of an entry, from one registration to the next, is a
number of refusals and then at most one success.
-/

namespace Stencil

/-- The verdicts on the sources of one name in one registry, in order. -/
def Compilation.verdicts (registry : Nat) (name : String) (list : List Compilation) : List Bool :=
  (list.filter fun made => made.registry = registry ∧ made.name = name).map (·.accepted)

/-- The history of an entry: how it was, the verdicts on it, and how it is
afterwards. -/
inductive Partial.History (environment : Environment) :
    Option Partial → List Bool → Option Partial → Prop
  | still (entry : Option Partial) : History environment entry [] entry
  | rejected {source : String} {verdicts : List Bool} {entry : Option Partial}
      (rest : History environment (some (.source source)) verdicts entry) :
      History environment (some (.source source)) (false :: verdicts) entry
  | accepted {source : String} {template : Template}
      (bound : template.environment = environment)
      (compiles : environment.Compiles source template.spec) :
      History environment (some (.source source)) [true] (some (.compiled template))

/-- What an entry comes to while nothing is registered in its place. A source is
refused any number of times, and then accepted once or not at all; what is no
source is left alone. -/
def Partial.Settles (environment : Environment) (before : Option Partial) (verdicts : List Bool)
    (after : Option Partial) : Prop :=
  match before with
  | some (.source text) => ∃ refusals,
    (verdicts = List.replicate refusals false ∧ after = some (.source text)) ∨
    (verdicts = List.replicate refusals false ++ [true] ∧
      ∃ template, after = some (.compiled template) ∧ template.environment = environment ∧
        environment.Compiles text template.spec)
  | entry => verdicts = [] ∧ after = entry

namespace Compilation

variable {registry : Nat} {name : String}

theorem verdicts_append (first second : List Compilation) :
    verdicts registry name (first ++ second) =
      verdicts registry name first ++ verdicts registry name second := by
  unfold verdicts
  rw [List.filter_append, List.map_append]

theorem verdicts_single (registry other : Nat) (name name' : String) (accepted : Bool) :
    verdicts other name' [⟨registry, name, accepted⟩] =
      if other = registry ∧ name' = name then [accepted] else [] := by
  unfold verdicts
  by_cases h : other = registry ∧ name' = name
  · obtain ⟨rfl, rfl⟩ := h
    simp
  · have h' : ¬ (registry = other ∧ name = name') := fun h' => h ⟨h'.1.symm, h'.2.symm⟩
    simp [h, h']

end Compilation

namespace Partial.History

variable {environment : Environment} {before after last : Option Partial}
  {verdicts more : List Bool}

theorem trans (h : History environment before verdicts after)
    (h' : History environment after more last) :
    History environment before (verdicts ++ more) last := by
  induction h with
  | still => exact h'
  | rejected _ ih => exact .rejected (ih h')
  | accepted bound compiles =>
      -- Of a template there is no history but that it stays.
      cases h' with
      | still => exact .accepted bound compiles

theorem isSome_eq (h : History environment before verdicts after) :
    after.isSome = before.isSome := by
  induction h with
  | still => rfl
  | rejected _ ih => exact ih
  | accepted => rfl

/-- What a history comes to: a source was refused and stays, or it was refused
until it was accepted and its template stands in its place; nothing happened to
any other entry. -/
theorem settles (h : History environment before verdicts after) :
    Settles environment before verdicts after := by
  induction h with
  | still entry =>
      match entry with
      | some (.source text) => exact ⟨0, .inl ⟨rfl, rfl⟩⟩
      | some (.compiled template) => exact ⟨rfl, rfl⟩
      | none => exact ⟨rfl, rfl⟩
  | rejected rest ih =>
      obtain ⟨refusals, hstays | haccepted⟩ := ih
      · refine ⟨refusals + 1, .inl ⟨?_, hstays.2⟩⟩
        rw [hstays.1, List.replicate_succ]
      · refine ⟨refusals + 1, .inr ⟨?_, haccepted.2⟩⟩
        rw [haccepted.1, List.replicate_succ, List.cons_append]
  | accepted bound compiles => exact ⟨0, .inr ⟨rfl, _, rfl, bound, compiles⟩⟩

theorem of_nil (h : History environment before [] after) : after = before := by
  cases h
  rfl

/-- The templates in an entry are bound to the environment if they were. -/
theorem bound (h : History environment before verdicts after)
    (hbound : ∀ template, before = some (.compiled template) →
      template.environment = environment) :
    ∀ template, after = some (.compiled template) → template.environment = environment := by
  induction h with
  | still => exact hbound
  | rejected _ ih => exact ih hbound
  | accepted bound _ =>
      rintro template ⟨⟩
      exact bound

end Partial.History

/-- What was compiled between two stores: each source where a frame finds it,
and each entry with the history that the verdicts tell. -/
structure Store.Compiled (start : Store) (root : Frame) (store : Store) (made : List Compilation) :
    Prop where
  log : store.compilations.toList = start.compilations.toList ++ made
  fresh : store.freshPartials = start.freshPartials
  home : ∀ compilation ∈ made, compilation.registry = start.partialHome root compilation.name
  history : ∀ registry name, Partial.History root.environment
    ((start.partialsOf registry).get? name) (Compilation.verdicts registry name made)
    ((store.partialsOf registry).get? name)

/-- Two frames that find partials in the same places, for the same compiler. -/
structure Frame.Kin (root frame : Frame) : Prop where
  environment : frame.environment = root.environment
  partials : frame.options.partials = root.options.partials

theorem Frame.Kin.partialHome_eq {root frame : Frame} (h : root.Kin frame) (store : Store)
    (name : String) : store.partialHome frame name = store.partialHome root name := by
  unfold Store.partialHome
  rw [h.partials, h.environment]

namespace Store.Compiled

variable {root frame : Frame} {start store after : Store} {made : List Compilation} {name : String}

theorem refl (root : Frame) (start : Store) : Compiled start root start [] where
  log := (List.append_nil _).symm
  fresh := rfl
  home := by simp
  history _ _ := .still _

theorem congr (h : Compiled start root store made)
    (hpartials : after.partials = store.partials)
    (hcompilations : after.compilations = store.compilations)
    (hfresh : after.freshPartials = store.freshPartials) :
    Compiled start root after made where
  log := by
    rw [hcompilations]
    exact h.log
  fresh := hfresh.trans h.fresh
  home := h.home
  history := by
    unfold Store.partialsOf
    rw [hpartials]
    exact h.history

theorem bound (h : Compiled start root store made) (hbound : start.Bound root.environment) :
    store.Bound root.environment :=
  fun registry name template hentry =>
    (h.history registry name).bound (hbound registry name) template hentry

/-- Partials are still found where they were found at first, for no name is
added or removed. -/
theorem partialHome_eq (h : Compiled start root store made) (hkin : root.Kin frame)
    (name : String) : store.partialHome frame name = start.partialHome root name := by
  rw [hkin.partialHome_eq]
  exact Store.partialHome_congr (fun registry name => (h.history registry name).isSome_eq) _ _

/-- One more source was compiled. Its entry is the only one that may have
changed. -/
theorem snoc (h : Compiled start root store made) (accepted : Bool) (hkin : root.Kin frame)
    (hlog : after.compilations =
      store.compilations.push ⟨store.partialHome frame name, name, accepted⟩)
    (hfresh : after.freshPartials = store.freshPartials)
    (hentry : Partial.History root.environment (store.entry? frame name) [accepted]
      ((after.partialsOf (store.partialHome frame name)).get? name))
    (hothers : ∀ registry name', ¬ (registry = store.partialHome frame name ∧ name' = name) →
      (after.partialsOf registry).get? name' = (store.partialsOf registry).get? name') :
    Compiled start root after (made ++ [⟨store.partialHome frame name, name, accepted⟩]) where
  log := by rw [hlog, Array.toList_push, h.log, List.append_assoc]
  fresh := hfresh.trans h.fresh
  home := by
    intro compilation member
    rcases List.mem_append.mp member with hold | hnew
    · exact h.home compilation hold
    · obtain rfl := List.mem_singleton.mp hnew
      exact h.partialHome_eq hkin name
  history := by
    intro registry name'
    rw [Compilation.verdicts_append, Compilation.verdicts_single]
    by_cases hsame : registry = store.partialHome frame name ∧ name' = name
    · rw [if_pos hsame, hsame.1, hsame.2]
      exact (h.history _ _).trans hentry
    · rw [if_neg hsame, List.append_nil, hothers registry name' hsame]
      exact h.history registry name'

theorem finds {outcome : Outcome Template} (h : Compiled start root store made)
    (hkin : root.Kin frame) (hfinds : frame.Finds {} name store (outcome, after)) :
    ∃ more, Compiled start root after (made ++ more) := by
  cases hfinds with
  | missing => exact ⟨[], (List.append_nil made).symm ▸ h⟩
  | compiled => exact ⟨[], (List.append_nil made).symm ▸ h⟩
  | unavailable => exact ⟨[], (List.append_nil made).symm ▸ h⟩
  | rejected found given answer =>
      refine ⟨_, h.snoc false hkin rfl rfl ?_ fun _ _ _ => rfl⟩
      show Partial.History root.environment (store.entry? frame name) [false]
        (store.entry? frame name)
      rw [found]
      exact .rejected (.still _)
  | @accepted source compiler spec _ _ found given answer made' =>
      cases made'
      refine ⟨_, h.snoc true hkin rfl rfl ?_ ?_⟩
      · rw [found, Store.settled_kept, Store.get?_registerPartial, if_pos ⟨rfl, rfl⟩]
        exact .accepted hkin.environment ⟨compiler, _, hkin.environment ▸ given, answer⟩
      · intro registry name' hother
        rw [Store.settled_kept, Store.get?_registerPartial, if_neg hother]
        rfl

/-- What a render compiles is kept account of by every part of it. -/
def upkeep (root : Frame) (start : Store) : Upkeep Unit where
  holds _ store := ∃ made, Compiled start root store made
  frames _ frame := root.Kin frame
  opens _ frame := root.Kin frame

theorem upkeep_lawful (hbound : start.Bound root.environment) :
    (upkeep root start).Lawful := by
  apply Upkeep.Lawful.of_entries
  · exact fun _ hkin => hkin
  · rintro store after ⟨made, h⟩ same
    exact ⟨made, h.congr same.partials same.compilations same.freshPartials⟩
  · rintro frame store name outcome after hkin ⟨made, h⟩ hfinds
    obtain ⟨more, hmore⟩ := h.finds hkin hfinds
    refine ⟨⟨_, hmore⟩, ?_⟩
    rintro template rfl
    refine ⟨?_, hkin.partials⟩
    cases hfinds with
    | compiled found => exact h.bound hbound _ name template found
    | accepted _ _ _ made' =>
        cases made'
        exact hkin.environment

end Store.Compiled

theorem Template.render_compiled (template : Template) (levels : Nat) (context : Value)
    (options : RenderOptions) {store : Store} (hbound : store.Bound template.environment) :
    ∃ made, store.Compiled ⟨template, options⟩
      (Task.run {} levels (.template template context options) store).2 made := by
  have hlawful : (Store.Compiled.upkeep ⟨template, options⟩ store).Lawful :=
    Store.Compiled.upkeep_lawful hbound
  have hkin : (Store.Compiled.upkeep ⟨template, options⟩ store).opens () ⟨template, options⟩ :=
    ⟨rfl, rfl⟩
  obtain ⟨_, _, hafter⟩ := hlawful.run_holds levels hkin ⟨[], .refl _ _⟩ context
  exact hafter

/-- An operation that registers a partial under a name in a registry. -/
def Operation.Registers (registry : Nat) (name : String) : Operation → Prop
  | .registerSource other name' _ | .registerTemplate other name' _ =>
    registry = other ∧ name = name'
  | _ => False

namespace Host

variable {environment : Environment} {host : Host} {operation : Operation}
  {operations : List Operation} {registry : Nat} {name : String}

structure Bound (environment : Environment) (host : Host) : Prop where
  store : host.store.Bound environment
  templates : ∀ template ∈ host.templates, template.environment = environment

theorem empty_bound (environment : Environment) : empty.Bound environment where
  store := .empty environment
  templates := by
    intro template member
    cases member

/-- A host that makes no template of another environment goes on working with
its own. -/
theorem Bound.step (h : host.Bound environment) (huses : operation.Uses environment)
    (levels : Nat) : (host.step {} levels operation).2.Bound environment := by
  cases operation with
  | openHelpers registry => exact ⟨h.store, h.templates⟩
  | openPartials =>
      refine ⟨?_, h.templates⟩
      intro registry name template hfound
      simp only [step, Store.get?_newPartials] at hfound
      split at hfound
      · cases hfound
      · exact h.store registry name template hfound
  | make other spec =>
      refine ⟨h.store, ?_⟩
      intro template member
      rcases List.mem_append.mp member with hold | hnew
      · exact h.templates template hold
      · obtain rfl := List.mem_singleton.mp hnew
        exact huses
  | registerHelper registry name helper => exact ⟨h.store, h.templates⟩
  | registerSource registry name source =>
      exact ⟨h.store.registerSource registry name source, h.templates⟩
  | registerTemplate registry name index =>
      cases hfound : host.templates[index]? with
      | none => simpa only [step, hfound] using h
      | some template =>
          simp only [step, hfound]
          refine ⟨h.store.registerPartial ?_ registry name, h.templates⟩
          rintro _ ⟨⟩
          exact h.templates template (List.mem_of_getElem? hfound)
  | render index context helpers partials data =>
      cases hfound : host.templates[index]? with
      | none => simpa only [step, hfound] using h
      | some template =>
          simp only [step, hfound]
          have htemplate := h.templates template (List.mem_of_getElem? hfound)
          have hbound : host.store.Bound template.environment := htemplate ▸ h.store
          obtain ⟨made, hmade⟩ :=
            template.render_compiled levels context ⟨helpers, partials, data, 0⟩ hbound
          exact ⟨htemplate ▸ hmade.bound hbound, h.templates⟩

/-- What one operation does to an entry that it does not register. -/
theorem Bound.step_history (h : host.Bound environment)
    (hkeeps : ¬ operation.Registers registry name) (hopen : registry < host.store.freshPartials)
    (levels : Nat) :
    registry < (host.step {} levels operation).2.store.freshPartials ∧
    ∃ made,
      (host.step {} levels operation).2.store.compilations.toList =
        host.store.compilations.toList ++ made ∧
      Partial.History environment ((host.store.partialsOf registry).get? name)
        (Compilation.verdicts registry name made)
        (((host.step {} levels operation).2.store.partialsOf registry).get? name) := by
  have hstill : ∀ next : Store, next.freshPartials = host.store.freshPartials →
      next.compilations = host.store.compilations →
      (next.partialsOf registry).get? name = (host.store.partialsOf registry).get? name →
      registry < next.freshPartials ∧ ∃ made,
        next.compilations.toList = host.store.compilations.toList ++ made ∧
        Partial.History environment ((host.store.partialsOf registry).get? name)
          (Compilation.verdicts registry name made) ((next.partialsOf registry).get? name) := by
    intro next hfresh hlog hentry
    refine ⟨hfresh ▸ hopen, [], ?_, ?_⟩
    · rw [hlog, List.append_nil]
    · rw [hentry]
      exact .still _
  cases operation with
  | openHelpers other => exact hstill _ rfl rfl rfl
  | openPartials =>
      refine ⟨Nat.lt_succ_of_lt hopen, [], (List.append_nil _).symm, ?_⟩
      have hentry : ((host.store.newPartials.2.partialsOf registry).get? name) =
          (host.store.partialsOf registry).get? name := by
        rw [Store.get?_newPartials, if_neg (Nat.ne_of_lt hopen)]
      show Partial.History _ _ _ ((host.store.newPartials.2.partialsOf registry).get? name)
      rw [hentry]
      exact .still _
  | make other spec => exact hstill _ rfl rfl rfl
  | registerHelper other name' helper => exact hstill _ rfl rfl rfl
  | registerSource other name' source =>
      refine hstill _ rfl rfl ?_
      simp only [Host.step]
      rw [Store.get?_registerPartial]
      exact if_neg hkeeps
  | registerTemplate other name' index =>
      cases hfound : host.templates[index]? with
      | none =>
          simp only [Host.step, hfound]
          exact hstill _ rfl rfl rfl
      | some template =>
          simp only [Host.step, hfound]
          refine hstill _ rfl rfl ?_
          rw [Store.get?_registerPartial]
          exact if_neg hkeeps
  | render index context helpers partials data =>
      cases hfound : host.templates[index]? with
      | none =>
          simp only [Host.step, hfound]
          exact hstill _ rfl rfl rfl
      | some template =>
          simp only [Host.step, hfound]
          have htemplate := h.templates template (List.mem_of_getElem? hfound)
          have hbound : host.store.Bound template.environment := htemplate ▸ h.store
          obtain ⟨made, hmade⟩ :=
            template.render_compiled levels context ⟨helpers, partials, data, 0⟩ hbound
          refine ⟨hmade.fresh ▸ hopen, made, hmade.log, ?_⟩
          exact htemplate ▸ hmade.history registry name

theorem Bound.run (h : host.Bound environment)
    (huses : ∀ operation ∈ operations, operation.Uses environment) (levels : Nat) :
    (host.run {} levels operations).2.Bound environment := by
  induction operations generalizing host with
  | nil => exact h
  | cons operation rest ih =>
      have hnext := h.step (huses operation List.mem_cons_self) levels
      exact ih hnext fun other member => huses other (List.mem_cons_of_mem _ member)

/-- What many operations do to an entry that none of them registers. -/
theorem Bound.run_history (h : host.Bound environment)
    (huses : ∀ operation ∈ operations, operation.Uses environment)
    (hkeeps : ∀ operation ∈ operations, ¬ operation.Registers registry name)
    (hopen : registry < host.store.freshPartials) (levels : Nat) :
    ∃ made,
      (host.run {} levels operations).2.store.compilations.toList =
        host.store.compilations.toList ++ made ∧
      Partial.History environment ((host.store.partialsOf registry).get? name)
        (Compilation.verdicts registry name made)
        (((host.run {} levels operations).2.store.partialsOf registry).get? name) := by
  induction operations generalizing host with
  | nil => exact ⟨[], (List.append_nil _).symm, .still _⟩
  | cons operation rest ih =>
      have hnext := h.step (huses operation List.mem_cons_self) levels
      obtain ⟨hopen', first, hfirst, hhistory⟩ :=
        h.step_history (hkeeps operation List.mem_cons_self) hopen levels
      obtain ⟨more, hmore, hhistory'⟩ := ih hnext
        (fun other member => huses other (List.mem_cons_of_mem _ member))
        (fun other member => hkeeps other (List.mem_cons_of_mem _ member)) hopen'
      refine ⟨first ++ more, ?_, ?_⟩
      · rw [← List.append_assoc, ← hfirst]
        exact hmore
      · rw [Compilation.verdicts_append]
        exact hhistory.trans hhistory'

end Host

/-- What a reference to a source does. If the compiler refuses the source,
nothing but that is noted, and the source is still there. If the compiler
accepts it, the template stands in its place, in the registry where it was
found, before the template is rendered. -/
def Frame.Tries (frame : Frame) (worker : Worker) (name source : String) (context : Value)
    (compiler : Compiler) (store : Store) : Prop :=
  match compiler.answer store.attempts source with
  | .error cause =>
    frame.invokePartial {} worker name context store =
      (.failed (.compilation name cause),
        store.attempted ⟨store.partialHome frame name, name, false⟩)
  | .ok spec =>
    let (template, made) := (store.attempted ⟨store.partialHome frame name, name, true⟩).newTemplate
      frame.environment spec
    frame.invokePartial {} worker name context store =
      worker (.template template context frame.options.nested)
        (made.registerPartial (store.partialHome frame name) name (.compiled template))

theorem Frame.tries_source (frame : Frame) (worker : Worker) (name : String) (context : Value)
    {store : Store} {source : String} {compiler : Compiler}
    (hfound : store.entry? frame name = some (.source source))
    (hcompiler : frame.environment.compiler = some compiler) :
    frame.Tries worker name source context compiler store := by
  unfold Frame.Tries Frame.invokePartial
  simp only [Render.bind_run]
  cases hanswer : compiler.answer store.attempts source with
  | error cause => simp only [partialTemplate_rejected hfound hcompiler hanswer]
  | ok spec => simp only [partialTemplate_accepted hfound hcompiler hanswer, Store.settled_kept]

/-- The compiler of one environment sees a registered source until it has
accepted it and not once more, whatever is rendered and registered meanwhile.
The template takes the place of the source where a reference finds it, in the
registry of the render or else in that of the environment, and an entry of the
same name in the other registry stays as it is. -/
theorem Host.compiles_once (environment : Environment) (levels : Nat) :
    (∀ (earlier later : List Operation) (registration : Operation) (registry : Nat)
        (name : String),
      (∀ operation ∈ earlier ++ registration :: later, operation.Uses environment) →
      registration.Registers registry name →
      (∀ operation ∈ later, ¬ operation.Registers registry name) →
      let registered :=
        ((Host.empty.run {} levels earlier).2.step {} levels registration).2
      let last := (registered.run {} levels later).2
      registry < registered.store.freshPartials →
      ∃ made,
        last.store.compilations.toList = registered.store.compilations.toList ++ made ∧
        Partial.Settles environment ((registered.store.partialsOf registry).get? name)
          (Compilation.verdicts registry name made)
          ((last.store.partialsOf registry).get? name)) ∧
    (∀ (earlier : List Operation) (template : Template) (context : Value)
        (helpers partials : Option Nat) (data : Option Value),
      (∀ operation ∈ earlier, operation.Uses environment) →
      let host := (Host.empty.run {} levels earlier).2
      let root : Frame := ⟨template, ⟨helpers, partials, data, 0⟩⟩
      let after := (Task.run {} levels (.template template context root.options) host.store).2
      template ∈ host.templates →
      ∃ made,
        after.compilations.toList = host.store.compilations.toList ++ made ∧
        (∀ compilation ∈ made,
          compilation.registry = host.store.partialHome root compilation.name) ∧
        ∀ registry name, registry ≠ host.store.partialHome root name →
          (after.partialsOf registry).get? name =
            (host.store.partialsOf registry).get? name) ∧
    ∀ (frame : Frame) (worker : Worker) (name source : String) (context : Value) (store : Store)
        (compiler : Compiler),
      store.entry? frame name = some (.source source) →
      frame.environment.compiler = some compiler →
      frame.Tries worker name source context compiler store := by
  have hbound : ∀ earlier : List Operation,
      (∀ operation ∈ earlier, operation.Uses environment) →
      (Host.empty.run {} levels earlier).2.Bound environment :=
    fun earlier huses => (Host.empty_bound environment).run huses levels
  refine ⟨?_, ?_, ?_⟩
  · intro earlier later registration registry name huses _ hkeeps registered last hopen
    have hearlier := hbound earlier fun operation member =>
      huses operation (List.mem_append_left _ member)
    have hregistered : registered.Bound environment :=
      hearlier.step (huses registration (by simp)) levels
    have hlater : ∀ operation ∈ later, operation.Uses environment := fun operation member =>
      huses operation (by simp [member])
    obtain ⟨made, hlog, hhistory⟩ := hregistered.run_history hlater hkeeps hopen levels
    exact ⟨made, hlog, hhistory.settles⟩
  · intro earlier template context helpers partials data huses host root after member
    have hhost := hbound earlier huses
    have htemplate := hhost.templates template member
    have hstore : host.store.Bound template.environment := htemplate ▸ hhost.store
    obtain ⟨made, hmade⟩ := template.render_compiled levels context root.options hstore
    refine ⟨made, hmade.log, hmade.home, ?_⟩
    intro registry name hother
    have hverdicts : Compilation.verdicts registry name made = [] := by
      unfold Compilation.verdicts
      rw [List.map_eq_nil_iff, List.filter_eq_nil_iff]
      intro compilation hmember hsame
      obtain ⟨hregistry, hname⟩ := of_decide_eq_true hsame
      exact hother (by rw [← hregistry, ← hname, hmade.home compilation hmember])
    have hhistory := hmade.history registry name
    rw [hverdicts] at hhistory
    exact hhistory.of_nil
  · intro frame worker name source context store compiler hfound hcompiler
    exact frame.tries_source worker name context hfound hcompiler

namespace SecondTry

/-- A compiler that refuses the first source that it is given. -/
def environment : Environment :=
  ⟨0, 0, {},
    some ⟨fun attempts source =>
      if attempts = 0 then .error .grammar else .ok (.nodes [.text source])⟩,
    .standard⟩

def earlier : List Operation :=
  [.openHelpers .empty, .openPartials, .make environment (.nodes [.inclusion "p" (.this none)])]

def renders : List Operation :=
  [.render 0 .null none none none, .render 0 .null none none none, .render 0 .null none none none]

def registered : Host :=
  ((Host.empty.run {} 4 earlier).2.step {} 4 (.registerSource 0 "p" "x")).2

theorem registered_freshPartials : registered.store.freshPartials = 1 := by decide +kernel

theorem renders_ends : (registered.run {} 4 renders).1 =
    [.failed (.compilation "p" .grammar), .done "x", .done "x"] := by decide +kernel

theorem renders_compilations :
    (registered.run {} 4 renders).2.store.compilations.toList =
      registered.store.compilations.toList ++ [⟨0, "p", false⟩, ⟨0, "p", true⟩] := by decide +kernel

end SecondTry

/-- Of three renders the first one finds the source refused, and the last one
finds its template. -/
theorem Host.compiles_once_tries_again :
    (SecondTry.registered.run {} 4 SecondTry.renders).1 =
      [.failed (.compilation "p" .grammar), .done "x", .done "x"] ∧
    Partial.Settles SecondTry.environment
      ((SecondTry.registered.store.partialsOf 0).get? "p") [false, true]
      (((SecondTry.registered.run {} 4 SecondTry.renders).2.store.partialsOf 0).get? "p") := by
  have huses : ∀ operation ∈ SecondTry.earlier ++ .registerSource 0 "p" "x" :: SecondTry.renders,
      operation.Uses SecondTry.environment := by
    simp [SecondTry.earlier, SecondTry.renders, Operation.Uses]
  have hkeeps : ∀ operation ∈ SecondTry.renders, ¬ operation.Registers 0 "p" := by
    simp [SecondTry.renders, Operation.Registers]
  have hfresh := SecondTry.registered_freshPartials
  have hcompilations := SecondTry.renders_compilations
  have hends := SecondTry.renders_ends
  unfold SecondTry.registered at hfresh hcompilations hends ⊢
  obtain ⟨made, hlog, hsettles⟩ := (Host.compiles_once SecondTry.environment 4).1
    SecondTry.earlier SecondTry.renders (.registerSource 0 "p" "x") 0 "p" huses ⟨rfl, rfl⟩ hkeeps
    (by rw [hfresh]; exact Nat.zero_lt_one)
  have hmade := List.append_cancel_left (hlog.symm.trans hcompilations)
  rw [hmade] at hsettles
  exact ⟨hends, hsettles⟩

end Stencil
