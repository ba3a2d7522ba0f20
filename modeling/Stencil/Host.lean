import Stencil.Render.Run

/-!
What a host does with the library. It opens registries, makes templates,
registers helpers and partials, and renders; each operation works on what the
ones before it left behind. Templates are named by the order in which the host
made them.
-/

namespace Stencil

inductive Operation where
  | openHelpers (registry : Registry Helper)
  | openPartials
  | make (environment : Environment) (spec : Spec)
  | registerHelper (registry : Nat) (name : String) (helper : Helper)
  | registerSource (registry : Nat) (name source : String)
  /-- Registers a template, or a copy of it, as a partial. -/
  | registerTemplate (registry : Nat) (name : String) (template : Nat)
  /-- Renders a template for a context, with what the caller supplies. -/
  | render (template : Nat) (context : Value) (helpers partials : Option Nat)
    (data : Option Value)

/-- An operation that makes no template of another environment. -/
def Operation.Uses (environment : Environment) : Operation → Prop
  | .make other _ => other = environment
  | _ => True

/-- The compiler of an environment, if it has one, always answers a source in the
same way. -/
def Environment.Steady (environment : Environment) : Prop :=
  ∀ compiler, environment.compiler = some compiler → ∀ attempts attempts' source,
    compiler.answer attempts source = compiler.answer attempts' source

/-- What a host has to work with. -/
structure Host where
  store : Store := .empty
  templates : List Template := []

namespace Host

/-- The host before it does anything. -/
def empty : Host := {}

/-- The host after it did something, and how a render ended if that was one. -/
def step (reuse : Reuse) (levels : Nat) (host : Host) : Operation → Option (Outcome String) × Host
  | .openHelpers registry => (none, { host with store := (host.store.newHelpers registry).2 })
  | .openPartials => (none, { host with store := host.store.newPartials.2 })
  | .make environment spec =>
    let (template, store) := host.store.newTemplate environment spec
    (none, { store, templates := host.templates ++ [template] })
  | .registerHelper registry name helper =>
    (none, { host with store := host.store.registerHelper registry name helper })
  | .registerSource registry name source =>
    (none, { host with store := host.store.registerPartial registry name (.source source) })
  | .registerTemplate registry name index =>
    match host.templates[index]? with
    | some template =>
      (none, { host with store := host.store.registerPartial registry name (.compiled template) })
    | none => (none, host)
  | .render index context helpers partials data =>
    match host.templates[index]? with
    | some template =>
      let task := Task.template template context ⟨helpers, partials, data, 0⟩
      let (outcome, store) := Task.run reuse levels task host.store
      (some outcome, { host with store })
    | none => (none, host)

/-- The host after it did one thing after another, and how the renders ended. -/
def run (reuse : Reuse) (levels : Nat) (host : Host) :
    List Operation → List (Outcome String) × Host
  | [] => ([], host)
  | operation :: rest =>
    let (outcome, next) := host.step reuse levels operation
    let (outcomes, last) := next.run reuse levels rest
    (outcome.toList ++ outcomes, last)

end Host

end Stencil
