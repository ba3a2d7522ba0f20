import Stencil.Page.Basic

/-!
The store: everything that rendering changes. It holds the registries of all
environments and of all renders, the programs that templates keep, what was
logged and traced, and the pen of the page that is being written. Outlines show
templates and what surrounds them to somebody who looks for a mistake; registries
show their names there, in ascending order.
-/

namespace Stencil

/-- A source that was given to a compiler: the registry and the name of the
partial, and whether the compiler accepted it. -/
structure Compilation where
  registry : Nat
  name : String
  accepted : Bool
  deriving DecidableEq

/-- A frame that a render opened, and the frames that were open around it, the
innermost first. -/
structure Visit where
  frame : Frame
  callers : List Frame

/-- What rendering reads and changes. -/
structure Store where
  helpers : Table (Registry Helper) := .empty
  partials : Table (Registry Partial) := .empty
  slots : Table Slots := .empty
  /-- The numbers for the next registries, template and program. -/
  freshHelpers : Nat := 0
  freshPartials : Nat := 0
  freshTemplate : Nat := 0
  freshProgram : Nat := 0
  trace : Array Diagnostic := #[]
  messages : Array Message := #[]
  /-- How many evaluations of deferred values were made. -/
  evaluations : Nat := 0
  compilations : Array Compilation := #[]
  /-- How many sources were ever given to compilers. -/
  attempts : Nat := 0
  /-- The frames that are open, the innermost first. -/
  frames : List Frame := []
  visits : Array Visit := #[]
  pen : Pen := {}

namespace Store

def empty : Store := {}

/-- The helpers of a registry; one that was never made has none. -/
def helpersOf (store : Store) (registry : Nat) : Registry Helper :=
  (store.helpers.get? registry).getD .empty

/-- The partials of a registry; one that was never made has none. -/
def partialsOf (store : Store) (registry : Nat) : Registry Partial :=
  (store.partials.get? registry).getD .empty

def slotsOf (store : Store) (template : Template) : Slots :=
  (store.slots.get? template.identity).getD .empty

/-- Adds a registry of helpers and returns its number. -/
def newHelpers (store : Store) (registry : Registry Helper) : Nat × Store :=
  (store.freshHelpers,
    { store with
      helpers := store.helpers.set store.freshHelpers registry
      freshHelpers := store.freshHelpers + 1 })

/-- Adds an empty registry of partials and returns its number. -/
def newPartials (store : Store) : Nat × Store :=
  (store.freshPartials,
    { store with
      partials := store.partials.set store.freshPartials .empty
      freshPartials := store.freshPartials + 1 })

def newEnvironment (store : Store) (settings : Settings) (compiler : Option Compiler)
    (logger : Logger) : Environment × Store :=
  let (helpers, store) := store.newHelpers Builtin.registry
  let (partials, store) := store.newPartials
  (⟨helpers, partials, settings, compiler, logger⟩, store)

def newTemplate (store : Store) (environment : Environment) (spec : Spec) : Template × Store :=
  (⟨store.freshTemplate, environment, spec, ⟨store.freshProgram, [], none, []⟩⟩,
    { store with
      freshTemplate := store.freshTemplate + 1
      freshProgram := store.freshProgram + 1 })

def registerHelper (store : Store) (registry : Nat) (name : String) (helper : Helper) : Store :=
  { store with
    helpers := store.helpers.set registry ((store.helpersOf registry).register name helper) }

def registerPartial (store : Store) (registry : Nat) (name : String) (entry : Partial) : Store :=
  { store with
    partials := store.partials.set registry ((store.partialsOf registry).register name entry) }

def note (store : Store) (diagnostic : Diagnostic) : Store :=
  { store with trace := store.trace.push diagnostic }

def compiled (store : Store) (compilation : Compilation) : Store :=
  { store with
    compilations := store.compilations.push compilation
    attempts := store.attempts + 1 }

/-- Opens a frame inside those that are open. -/
def enter (store : Store) (frame : Frame) : Store :=
  { store with
    frames := frame :: store.frames
    visits := store.visits.push ⟨frame, store.frames⟩ }

def log (store : Store) (environment : Environment) (severity : Severity) (text : String) :
    Store :=
  { store with messages := store.messages.push (environment.logger.receive severity text) }

/-- Counts evaluations of deferred values, and notes each that did not
settle. -/
def tally (store : Store) (tally : Tally) : Store :=
  { store with
    evaluations := store.evaluations + tally.calls
    trace := store.trace ++ Array.replicate tally.unsettled .unsettled }

/-- The store with nothing logged, traced or counted. -/
def forget (store : Store) : Store :=
  { store with
    trace := #[]
    messages := #[]
    evaluations := 0
    compilations := #[]
    visits := #[] }

/-- A helper of the override registry, else of the environment. -/
def helper? (store : Store) (frame : Frame) (name : String) : Option Helper :=
  (frame.options.helpers.bind fun registry => (store.helpersOf registry).get? name).or
    ((store.helpersOf frame.environment.helpers).get? name)

/-- The registry in which a partial is found: the override registry if it has
the partial, else the one of the environment. -/
def partialHome (store : Store) (frame : Frame) (name : String) : Nat :=
  match frame.options.partials with
  | some registry =>
    if (store.partialsOf registry).contains name then registry else frame.environment.partials
  | none => frame.environment.partials

/-- The entry of a partial where a frame finds it. -/
def entry? (store : Store) (frame : Frame) (name : String) : Option Partial :=
  (store.partialsOf (store.partialHome frame name)).get? name

theorem partialHome_congr {store other : Store}
    (h : ∀ registry name, ((other.partialsOf registry).get? name).isSome =
      ((store.partialsOf registry).get? name).isSome) (frame : Frame) (name : String) :
    other.partialHome frame name = store.partialHome frame name := by
  unfold partialHome Registry.contains
  cases frame.options.partials with
  | none => rfl
  | some registry => simp only [h]

theorem entry?_congr {store other : Store} (h : other.partials = store.partials) (frame : Frame)
    (name : String) : other.entry? frame name = store.entry? frame name := by
  have hpartials : other.partialsOf = store.partialsOf := by
    funext registry
    unfold partialsOf
    rw [h]
  have hhome : other.partialHome frame name = store.partialHome frame name :=
    partialHome_congr (fun registry name => by rw [hpartials]) frame name
  unfold entry?
  rw [hhome, hpartials]

theorem partialsOf_registerPartial (store : Store) (registry other : Nat) (name : String)
    (entry : Partial) :
    (store.registerPartial registry name entry).partialsOf other =
      if other = registry then (store.partialsOf registry).register name entry
      else store.partialsOf other := by
  unfold registerPartial partialsOf
  split
  case isTrue h => rw [h, Table.get?_set_self, Option.getD_some]
  case isFalse h => rw [Table.get?_set_ne _ _ h]

theorem get?_registerPartial (store : Store) (registry other : Nat) (name name' : String)
    (entry : Partial) :
    ((store.registerPartial registry name entry).partialsOf other).get? name' =
      if other = registry ∧ name' = name then some entry
      else (store.partialsOf other).get? name' := by
  rw [partialsOf_registerPartial]
  by_cases hregistry : other = registry
  · subst hregistry
    rw [if_pos rfl, Registry.get?_register]
    by_cases hname : name' = name
    · rw [if_pos hname, if_pos ⟨rfl, hname⟩]
    · rw [if_neg hname, if_neg fun h => hname h.2]
  · rw [if_neg hregistry, if_neg fun h => hregistry h.1]

theorem get?_newPartials (store : Store) (registry : Nat) (name : String) :
    (store.newPartials.2.partialsOf registry).get? name =
      if registry = store.freshPartials then none else (store.partialsOf registry).get? name := by
  unfold newPartials partialsOf
  split
  case isTrue h =>
    rw [h, Table.get?_set_self]
    rfl
  case isFalse h => rw [Table.get?_set_ne _ _ h]

/-- Which registry a partial is found in does not change when an entry takes the
place of another one. -/
theorem partialHome_registerPartial {store : Store} {registry : Nat} {name : String}
    (h : (store.partialsOf registry).contains name = true) (entry : Partial) (frame : Frame)
    (name' : String) :
    (store.registerPartial registry name entry).partialHome frame name' =
      store.partialHome frame name' := by
  refine partialHome_congr (fun other name' => ?_) frame name'
  rw [get?_registerPartial]
  split
  case isTrue hsame =>
    rw [hsame.1, hsame.2, Option.isSome_some]
    exact h.symm
  case isFalse => rfl

end Store

def Registry.outline {α : Type} (registry : Registry α) : Outline :=
  .list (registry.names.map .text)

def Program.outline (program : Program) : Outline :=
  .record "Program" [
    ("data", .option (program.data.map Value.outline)),
    ("depths", .word (Text.numeral program.depths.length))] true

def HelperOptions.outline (options : HelperOptions) : Outline :=
  .record "HelperOptions" [
    ("block", .option (options.block.map Program.outline)),
    ("inverse", options.inverse.outline),
    ("data", .option (options.data.map Value.outline))] true

def RenderOptions.outline (options : RenderOptions) (store : Store) : Outline :=
  .record "RenderOptions" [
    ("helpers", .option (options.helpers.map fun registry => (store.helpersOf registry).outline)),
    ("partials", .option
      (options.partials.map fun registry => (store.partialsOf registry).outline)),
    ("data", .option (options.data.map Value.outline)),
    ("depth", .word (Text.numeral options.depth))] false

def Environment.outline (environment : Environment) (store : Store) : Outline :=
  .record "Environment" [
    ("helpers", (store.helpersOf environment.helpers).outline),
    ("partials", (store.partialsOf environment.partials).outline),
    ("config", environment.settings.outline),
    ("compiler", .bool environment.compiler.isSome)] true

def Template.outline (template : Template) (store : Store) : Outline :=
  .record "Template" [
    ("cached_programs", .word (Text.numeral (store.slotsOf template).size))] true

end Stencil
