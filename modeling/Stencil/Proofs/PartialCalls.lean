import Stencil.Proofs.Nesting

/-!
Calls of partials. A call writes to a registry only if it was given a source that
the compiler accepts; then the template takes the place of the source before
anything of it is rendered. What follows can fail, and it can refer to the same
name again. But a render puts templates in place of sources and changes nothing
else that is registered, so a template that stands in a registry stays there.
-/

namespace Stencil

/-- What a render can do with an entry of a registry. -/
inductive Partial.Onward : Option Partial → Option Partial → Prop
  | same (entry : Option Partial) : Onward entry entry
  | settled (source : String) (template : Template) :
      Onward (some (.source source)) (some (.compiled template))

namespace Partial.Onward

variable {before mid after : Option Partial} {source : String} {template : Template}

theorem trans (h : Onward before mid) (h' : Onward mid after) : Onward before after := by
  cases h with
  | same => exact h'
  | settled source template =>
      cases h' with
      | same => exact .settled source template

theorem isSome_eq (h : Onward before after) : after.isSome = before.isSome := by
  cases h with
  | same => rfl
  | settled => rfl

theorem of_compiled (h : Onward (some (.compiled template)) after) :
    after = some (.compiled template) := by
  cases h
  rfl

theorem to_source (h : Onward before (some (.source source))) :
    before = some (.source source) := by
  cases h
  rfl

end Partial.Onward

/-- A store that a render can lead to: the helpers are the same, and a source that
was given to a compiler meanwhile was there at the start. -/
structure Store.Onward (start store : Store) : Prop where
  helpers : store.helpers = start.helpers
  entries : ∀ registry name,
    Partial.Onward ((start.partialsOf registry).get? name) ((store.partialsOf registry).get? name)
  log : ∃ made, store.compilations.toList = start.compilations.toList ++ made ∧
    ∀ compilation ∈ made, ∃ source,
      (start.partialsOf compilation.registry).get? compilation.name = some (.source source)

namespace Store.Onward

variable {start store after : Store} {frame : Frame} {registry : Nat} {name source : String}
  {template : Template}

theorem refl (start : Store) : Onward start start where
  helpers := rfl
  entries _ _ := .same _
  log := ⟨[], (List.append_nil _).symm, nofun⟩

theorem congr (h : Onward start store) (hhelpers : after.helpers = store.helpers)
    (hpartials : after.partials = store.partials)
    (hcompilations : after.compilations = store.compilations) : Onward start after where
  helpers := hhelpers.trans h.helpers
  entries := by
    unfold Store.partialsOf
    rw [hpartials]
    exact h.entries
  log := by
    rw [hcompilations]
    exact h.log

/-- A source that is given to a compiler was there at the start. -/
theorem attempted (h : Onward start store)
    (found : (store.partialsOf registry).get? name = some (.source source)) (accepted : Bool) :
    Onward start (store.attempted ⟨registry, name, accepted⟩) where
  helpers := h.helpers
  entries := h.entries
  log := by
    obtain ⟨made, hlog, hsources⟩ := h.log
    refine ⟨made ++ [⟨registry, name, accepted⟩], ?_, ?_⟩
    · show (store.compilations.push ⟨registry, name, accepted⟩).toList = _
      rw [Array.toList_push, hlog, List.append_assoc]
    · intro compilation member
      rcases List.mem_append.mp member with hold | hnew
      · exact hsources compilation hold
      · obtain rfl := List.mem_singleton.mp hnew
        have hentry := h.entries registry name
        rw [found] at hentry
        exact ⟨source, hentry.to_source⟩

theorem registerPartial (h : Onward start store)
    (found : (store.partialsOf registry).get? name = some (.source source))
    (template : Template) :
    Onward start (store.registerPartial registry name (.compiled template)) where
  helpers := h.helpers
  entries := by
    intro other name'
    rw [get?_registerPartial]
    split
    case isTrue hsame =>
      obtain ⟨rfl, rfl⟩ := hsame
      have hentry := h.entries other name'
      rw [found] at hentry
      exact hentry.trans (.settled source template)
    case isFalse => exact h.entries other name'
  log := h.log

theorem finds {outcome : Outcome Template} (h : Onward start store)
    (hfinds : frame.Finds {} name store (outcome, after)) : Onward start after := by
  cases hfinds with
  | missing => exact h
  | compiled => exact h
  | unavailable => exact h
  | rejected found => exact h.attempted found false
  | @accepted source compiler spec template made found given answer makes =>
      have hmade : Onward start made ∧
          (made.partialsOf (store.partialHome frame name)).get? name = some (.source source) := by
        cases makes
        exact ⟨(h.attempted found true).congr rfl rfl rfl, found⟩
      rw [settled_kept]
      exact hmade.1.registerPartial hmade.2 template

def upkeep (start : Store) : Upkeep Unit where
  holds _ store := Onward start store
  frames _ _ := True
  opens _ _ := True

theorem upkeep_lawful (start : Store) : (upkeep start).Lawful := by
  apply Upkeep.Lawful.of_entries
  · exact fun _ hopen => hopen
  · intro store after h same
    exact Onward.congr h same.helpers same.partials same.compilations
  · intro frame store name outcome after _ h hfinds
    exact ⟨Onward.finds h hfinds, fun _ _ => trivial⟩

/-- Every render leads onward, however it ends. -/
theorem render (levels : Nat) (template : Template) (context : Value) (options : RenderOptions)
    (store : Store) :
    store.Onward (Task.run {} levels (.template template context options) store).2 := by
  have hopens : (upkeep store).opens () ⟨template, options⟩ := trivial
  obtain ⟨_, _, hafter⟩ := (upkeep_lawful store).run_holds levels hopens (.refl store) context
  exact hafter

theorem compiled (h : Onward start store)
    (hentry : (start.partialsOf registry).get? name = some (.compiled template)) :
    (store.partialsOf registry).get? name = some (.compiled template) := by
  have honward := h.entries registry name
  rw [hentry] at honward
  exact honward.of_compiled

/-- For an entry that is a template nothing is compiled any more. -/
theorem log_apart (h : Onward start store)
    (hentry : (start.partialsOf registry).get? name = some (.compiled template)) :
    ∃ made, store.compilations.toList = start.compilations.toList ++ made ∧
      ∀ compilation ∈ made, ¬ (compilation.registry = registry ∧ compilation.name = name) := by
  obtain ⟨made, hlog, hsources⟩ := h.log
  refine ⟨made, hlog, ?_⟩
  rintro compilation member ⟨hregistry, hname⟩
  obtain ⟨source, hsource⟩ := hsources compilation member
  rw [hregistry, hname, hentry] at hsource
  exact nomatch hsource

/-- A frame that found a template in a registry finds it there later on. -/
theorem partialTemplate_eq (h : Onward start store)
    (hentry : (start.partialsOf registry).get? name = some (.compiled template))
    (hhome : start.partialHome frame name = registry) :
    frame.partialTemplate {} name store = (.done template, store) := by
  have hsame : store.partialHome frame name = start.partialHome frame name :=
    partialHome_congr (fun other name' => (h.entries other name').isSome_eq) frame name
  apply Frame.partialTemplate_compiled
  unfold Store.entry?
  rw [hsame, hhome]
  exact h.compiled hentry

end Store.Onward

/-- A store in which everything that is registered or kept is as it was, and no
frame was opened meanwhile. -/
structure Store.Untouched (store after : Store) : Prop where
  helpers : after.helpers = store.helpers
  partials : after.partials = store.partials
  slots : after.slots = store.slots
  frames : after.frames = store.frames
  visits : after.visits = store.visits

/-- A store in which one entry of one registry has become a template. Everything
else that is registered or kept is as it was, and no frame was opened meanwhile. -/
structure Store.Replaced (registry : Nat) (name : String) (template : Template)
    (store after : Store) : Prop where
  entry : (after.partialsOf registry).get? name = some (.compiled template)
  others : ∀ other name', ¬ (other = registry ∧ name' = name) →
    (after.partialsOf other).get? name' = (store.partialsOf other).get? name'
  helpers : after.helpers = store.helpers
  slots : after.slots = store.slots
  frames : after.frames = store.frames
  visits : after.visits = store.visits

/-- What comes of a source that the compiler has accepted: a template, and the
store in which that stands in the place of the source. -/
def Store.accept (store : Store) (registry : Nat) (name : String) (environment : Environment)
    (spec : Spec) : Template × Store :=
  let made := (store.attempted ⟨registry, name, true⟩).newTemplate environment spec
  (made.1, made.2.registerPartial registry name (.compiled made.1))

theorem Store.accept_replaced (store : Store) (registry : Nat) (name : String)
    (environment : Environment) (spec : Spec) :
    store.Replaced registry name (store.accept registry name environment spec).1
      (store.accept registry name environment spec).2 where
  entry := by
    unfold accept
    rw [get?_registerPartial, if_pos ⟨rfl, rfl⟩]
  others := by
    intro other name' hother
    unfold accept
    rw [get?_registerPartial, if_neg hother]
    rfl
  helpers := rfl
  slots := rfl
  frames := rfl
  visits := rfl

/-- The ways in which a call of a partial ends. -/
inductive Render.Invokes (worker : Worker) (name : String) (context : Value)
    (options : RenderOptions) (registry : Nat) (environment : Environment) (store : Store) :
    Option Partial → Outcome String × Store → Prop
  | missing :
      Invokes worker name context options registry environment store none
        (.failed (.missingPartial name), store)
  | compiled (template : Template) :
      Invokes worker name context options registry environment store (some (.compiled template))
        (worker (.template template context options) store)
  | unavailable {source : String} (without : environment.compiler = none) :
      Invokes worker name context options registry environment store (some (.source source))
        (.failed (.compilationUnavailable name), store)
  | rejected {source : String} {compiler : Compiler} {cause : Cause}
      (given : environment.compiler = some compiler)
      (answer : compiler.answer store.attempts source = .error cause) :
      Invokes worker name context options registry environment store (some (.source source))
        (.failed (.compilation name cause), store.attempted ⟨registry, name, false⟩)
  | accepted {source : String} {compiler : Compiler} {spec : Spec}
      (given : environment.compiler = some compiler)
      (answer : compiler.answer store.attempts source = .ok spec) :
      Invokes worker name context options registry environment store (some (.source source))
        (worker (.template (store.accept registry name environment spec).1 context options)
          (store.accept registry name environment spec).2)

namespace Render

variable {worker : Worker} {name : String} {context : Value} {options : RenderOptions}
  {registry : Nat} {environment : Environment} {store : Store} {entry : Option Partial}

/-- What is told of the end of a call is how it ends. -/
theorem Invokes.invokePartial_eq {result : Outcome String × Store}
    (h : Invokes worker name context options registry environment store entry result) :
    invokePartial {} worker entry name context options registry environment store = result := by
  unfold invokePartial
  cases h with
  | missing => rfl
  | compiled => rfl
  | unavailable without =>
      simp only [partialTemplate, bind_run, compile, without]
      rfl
  | rejected given answer =>
      simp only [partialTemplate, bind_run, compile_run given, answer]
  | accepted given answer =>
      simp only [partialTemplate, bind_run, compile_run given, answer]
      rfl

theorem invokePartial_invokes (worker : Worker) (entry : Option Partial) (name : String)
    (context : Value) (options : RenderOptions) (registry : Nat) (environment : Environment)
    (store : Store) :
    Invokes worker name context options registry environment store entry
      (invokePartial {} worker entry name context options registry environment store) := by
  have hexists : ∃ result,
      Invokes worker name context options registry environment store entry result := by
    cases entry with
    | none => exact ⟨_, .missing⟩
    | some entry =>
        cases entry with
        | compiled template => exact ⟨_, .compiled template⟩
        | source source =>
            cases hcompiler : environment.compiler with
            | none => exact ⟨_, .unavailable hcompiler⟩
            | some compiler =>
                cases hanswer : compiler.answer store.attempts source with
                | error cause => exact ⟨_, .rejected hcompiler hanswer⟩
                | ok spec => exact ⟨_, .accepted hcompiler hanswer⟩
  obtain ⟨result, hends⟩ := hexists
  rwa [hends.invokePartial_eq]

/-- A call of a partial ends in one of five ways. If there is no partial, if a
source has no compiler, or if the compiler refuses it, the call fails with the name,
and with what the compiler said; then nothing is registered and no frame is opened. A
template is rendered, and that is all that is done. A source that the compiler
accepts is replaced by its template, in the registry and under the name that are
given, and then that is rendered. However the render ends, also where the template
lies too deep, the template stays in its place, a reference that finds it there
compiles nothing, and the compiler is not given the source again; the helpers are
the same, and of other partials the render can but settle the sources. -/
theorem invokes_partial (levels : Nat) (entry : Option Partial) (name : String)
    (context : Value) (options : RenderOptions) (registry : Nat) (environment : Environment)
    (store : Store) :
    let invoke := fun worker =>
      invokePartial {} worker entry name context options registry environment store
    (∀ worker result, invoke worker = result ↔
      Invokes worker name context options registry environment store entry result) ∧
    store.Untouched (store.attempted ⟨registry, name, false⟩) ∧
    ∀ source compiler spec, entry = some (.source source) →
      environment.compiler = some compiler →
      compiler.answer store.attempts source = .ok spec →
      let template := (store.accept registry name environment spec).1
      let before := (store.accept registry name environment spec).2
      let result := invoke (Task.run {} (levels + 1))
      template.environment = environment ∧ template.spec = spec ∧
      store.Replaced registry name template before ∧ before.Onward result.2 ∧
      (result.2.partialsOf registry).get? name = some (.compiled template) ∧
      (∀ frame later, before.Onward later → before.partialHome frame name = registry →
        frame.partialTemplate {} name later = (.done template, later)) ∧
      (∃ made,
        result.2.compilations.toList =
          store.compilations.toList ++ ⟨registry, name, true⟩ :: made ∧
        ∀ compilation ∈ made, ¬ (compilation.registry = registry ∧ compilation.name = name)) ∧
      (environment.settings.maxPartialDepth < options.depth →
        result.1 = .failed (.tooDeep options.depth environment.settings.maxPartialDepth)) := by
  intro invoke
  have hinvokes : ∀ worker,
      Invokes worker name context options registry environment store entry (invoke worker) :=
    fun worker =>
      invokePartial_invokes worker entry name context options registry environment store
  refine ⟨fun worker result => ⟨?_, Invokes.invokePartial_eq⟩, ⟨rfl, rfl, rfl, rfl, rfl⟩, ?_⟩
  · rintro rfl
    exact hinvokes worker
  intro source compiler spec hentry hgiven hanswer template before result
  have hreplaced : store.Replaced registry name template before :=
    store.accept_replaced registry name environment spec
  have hresult : result = Task.run {} (levels + 1) (.template template context options) before := by
    have hends : Invokes (Task.run {} (levels + 1)) name context options registry environment store
        (some (.source source)) _ := .accepted hgiven hanswer
    rw [← hentry] at hends
    exact hends.invokePartial_eq
  have honward : before.Onward result.2 := by
    rw [hresult]
    exact .render (levels + 1) template context options before
  refine ⟨rfl, rfl, hreplaced, honward, honward.compiled hreplaced.entry, ?_, ?_, ?_⟩
  · intro frame later hlater hhome
    exact hlater.partialTemplate_eq hreplaced.entry hhome
  · obtain ⟨made, hlog, hapart⟩ := honward.log_apart hreplaced.entry
    refine ⟨made, ?_, hapart⟩
    rw [hlog]
    show (store.compilations.push ⟨registry, name, true⟩).toList ++ made = _
    rw [Array.toList_push, List.append_assoc]
    rfl
  · intro hdeep
    have hrefused := template.render_refused (Task.run {} levels) context before hdeep
    rw [hresult]
    exact congrArg Prod.fst hrefused

end Render

namespace SelfReference

/-- A compiler that makes of every source a reference to one partial. -/
def environment : Environment :=
  ⟨0, 0, ⟨.asymmetric, 2, none⟩, some ⟨fun _ _ => .ok (.nodes [.inclusion "p" (.this none)])⟩,
    .standard⟩

def store : Store := Store.empty.registerPartial 0 "p" (.source "x")

def options : RenderOptions := ⟨none, none, none, 1⟩

theorem ends : (Render.invokePartial {} (Task.run {} 8) (some (.source "x")) "p" .null options 0
    environment store).1 = .failed (.tooDeep 3 2) := by decide +kernel

end SelfReference

/-- A partial that refers to itself is compiled once. The references inside it find
its template until one lies too deep, and after that it still stands there. -/
theorem Render.invokes_partial_nested :
    (Render.invokePartial {} (Task.run {} 8) (some (.source "x")) "p" .null SelfReference.options 0
      SelfReference.environment SelfReference.store).1 = .failed (.tooDeep 3 2) ∧
    ∃ template,
      ((Render.invokePartial {} (Task.run {} 8) (some (.source "x")) "p" .null
        SelfReference.options 0 SelfReference.environment
        SelfReference.store).2.partialsOf 0).get? "p" = some (.compiled template) ∧
      template.spec = .nodes [.inclusion "p" (.this none)] ∧
      ∃ made,
        (Render.invokePartial {} (Task.run {} 8) (some (.source "x")) "p" .null
          SelfReference.options 0 SelfReference.environment
          SelfReference.store).2.compilations.toList = ⟨0, "p", true⟩ :: made ∧
        ∀ compilation ∈ made, ¬ (compilation.registry = 0 ∧ compilation.name = "p") := by
  obtain ⟨_, _, haccepted⟩ := Render.invokes_partial 7 (some (.source "x")) "p" .null
    SelfReference.options 0 SelfReference.environment SelfReference.store
  obtain ⟨_, hspec, _, _, hentry, _, hcompilations, _⟩ := haccepted "x" _ _ rfl rfl rfl
  exact ⟨SelfReference.ends, _, hentry, hspec, hcompilations⟩

end Stencil
