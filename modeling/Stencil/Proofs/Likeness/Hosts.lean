import Stencil.Host
import Stencil.Proofs.Keeping
import Stencil.Proofs.Likeness.Runs

/-!
Hosts side by side. Two hosts do the same things, one after another. Registries
are alike when the same names are registered with entries that are alike, and
registering keeps them so. A host is uniform when each template that it brings
uses every number for one block, also in the helpers that are called there.
-/

namespace Stencil

variable {α β : Type}

/-- Registries of the same names, with entries that stand for each other. -/
structure Registry.Alike (entries : α → β → Prop) (a : Registry α) (b : Registry β) : Prop where
  names : a.names = b.names
  get : ∀ name, Option.Rel entries (a.get? name) (b.get? name)

namespace Registry.Alike

variable {entries entries' : α → β → Prop} {a : Registry α} {b : Registry β}

theorem weaken (h : a.Alike entries b) (hentries : ∀ x y, entries x y → entries' x y) :
    a.Alike entries' b where
  names := h.names
  get name := (h.get name).weaken hentries

theorem empty : (Registry.empty : Registry α).Alike entries (Registry.empty : Registry β) where
  names := rfl
  get _ := .none

theorem register (h : a.Alike entries b) (name : String) {x : α} {y : β} (hentry : entries x y) :
    (a.register name x).Alike entries (b.register name y) where
  names := keys_insertField_eq name x y h.names
  get := by
    intro other
    rw [Registry.get?_register, Registry.get?_register]
    split
    · exact .some hentry
    · exact h.get other

/-- Replacing an entry on one side by another one that stands for the same. -/
theorem replace (h : a.Alike entries b) {name : String} {x : α} {y : β}
    (hname : b.get? name = some y) (hentry : entries x y) :
    (a.register name x).Alike entries b where
  names := by
    have hcontains : a.contains name = true := by
      rw [Registry.contains, (h.get name).isSome_eq, hname]
      rfl
    rw [Registry.names_register hcontains, h.names]
  get := by
    intro other
    rw [Registry.get?_register]
    split
    case isTrue hsame =>
      rw [hsame, hname]
      exact .some hentry
    case isFalse => exact h.get other

theorem contains_eq (h : a.Alike entries b) (name : String) :
    (a.get? name).isSome = (b.get? name).isSome :=
  (h.get name).isSome_eq

end Registry.Alike

namespace Store

variable {s t : Store} {f g : Frame}

theorem helpersOf_congr (h : s.helpers = t.helpers) : s.helpersOf = t.helpersOf := by
  funext registry
  unfold helpersOf
  rw [h]

/-- The helpers of a store decide what is found for a name. -/
theorem helper?_congr (h : s.helpers = t.helpers) (henvironment : f.environment = g.environment)
    (hoptions : f.options = g.options) (name : String) :
    s.helper? f name = t.helper? g name := by
  unfold helper?
  rw [helpersOf_congr h, henvironment, hoptions]

end Store

theorem Page.helperNames_congr {s t : Store} {f g : Frame} (h : s.helpers = t.helpers)
    (henvironment : f.environment = g.environment) (hoptions : f.options = g.options) :
    helperNames s f = helperNames t g := by
  unfold helperNames
  rw [Store.helpersOf_congr h, henvironment, hoptions]

/-- Stores with the same helpers, and with partials of the same names. -/
structure Store.Mirrors (s t : Store) : Prop where
  helpers : s.helpers = t.helpers
  names : ∀ registry, (s.partialsOf registry).names = (t.partialsOf registry).names

namespace Store.Mirrors

variable {s t : Store} {f g : Frame}

theorem helpersOf_eq (h : s.Mirrors t) : s.helpersOf = t.helpersOf :=
  Store.helpersOf_congr h.helpers

theorem helper?_eq (h : s.Mirrors t) (henvironment : f.environment = g.environment)
    (hoptions : f.options = g.options) (name : String) :
    s.helper? f name = t.helper? g name :=
  Store.helper?_congr h.helpers henvironment hoptions name

theorem helperNames_eq (h : s.Mirrors t) (henvironment : f.environment = g.environment)
    (hoptions : f.options = g.options) : Page.helperNames s f = Page.helperNames t g :=
  Page.helperNames_congr h.helpers henvironment hoptions

theorem partialNames_eq (h : s.Mirrors t) (henvironment : f.environment = g.environment)
    (hoptions : f.options = g.options) : Page.partialNames s f = Page.partialNames t g := by
  unfold Page.partialNames
  simp only [h.names, henvironment, hoptions]

theorem outline_eq (h : s.Mirrors t) (options : RenderOptions) :
    options.outline s = options.outline t := by
  unfold RenderOptions.outline Registry.outline
  simp only [h.helpersOf_eq, h.names]

end Store.Mirrors

namespace Operation

/-- A template that an operation may bring renders this: one that it makes, or
one that a compiler makes for it. -/
def Brings : Operation → Spec → Prop
  | .make environment spec, other => other = spec ∨ ∃ compiler attempts source,
    environment.compiler = some compiler ∧ compiler.answer attempts source = .ok other
  | _, _ => False

def BringsHelper : Operation → Helper → Prop
  | .openHelpers registry, helper => ∃ name, registry.get? name = some helper
  | .registerHelper _ _ helper, other => other = helper
  | _, _ => False

/-- Each template that the operations bring uses every number for one block, in
its own body and in those of the helpers. Programs may be compared if that is
granted, and those that a template keeps are not counted. -/
def Uniform (compares : Prop) (blocks : Spec → Nat → List Node) (operations : List Operation) :
    Prop :=
  ∀ spec, (∃ operation ∈ operations, operation.Brings spec) →
    (Licence.uniform (blocks spec) compares False).AllowsSpec spec ∧
    ∀ helper, (∃ operation ∈ operations, operation.BringsHelper helper) →
      (Licence.uniform (blocks spec) compares False).AllowsHelper helper

end Operation

/-- What uniform operations agree on: what is rendered, what is registered, and
which number stands for which block. -/
structure Conventions (compares : Prop) where
  blocks : Spec → Nat → List Node
  specs : Spec → Prop
  helpers : Helper → Prop
  allows_spec : ∀ spec, specs spec → (Licence.uniform (blocks spec) compares False).AllowsSpec spec
  allows_helper : ∀ spec helper, specs spec → helpers helper →
    (Licence.uniform (blocks spec) compares False).AllowsHelper helper

namespace Conventions

variable {compares : Prop}

def licence (con : Conventions compares) (spec : Spec) : Licence :=
  Licence.uniform (con.blocks spec) compares False

/-- A compiler that keeps to the conventions. -/
def Offers (con : Conventions compares) (environment : Environment) : Prop :=
  ∀ compiler attempts source spec, environment.compiler = some compiler →
    compiler.answer attempts source = .ok spec → con.specs spec

/-- An operation that keeps to the conventions. -/
structure Follows (con : Conventions compares) (operation : Operation) : Prop where
  specs : ∀ spec, operation.Brings spec → con.specs spec
  helpers : ∀ helper, operation.BringsHelper helper → con.helpers helper

def of {blocks : Spec → Nat → List Node} {operations : List Operation}
    (h : Operation.Uniform compares blocks operations) : Conventions compares where
  blocks := blocks
  specs spec := ∃ operation ∈ operations, operation.Brings spec
  helpers helper := ∃ operation ∈ operations, operation.BringsHelper helper
  allows_spec spec hspec := (h spec hspec).1
  allows_helper spec helper hspec hhelper := (h spec hspec).2 helper hhelper

theorem of_follows {blocks : Spec → Nat → List Node} {operations : List Operation}
    (h : Operation.Uniform compares blocks operations) {operation : Operation}
    (member : operation ∈ operations) : (of h).Follows operation where
  specs _ hspec := ⟨operation, member, hspec⟩
  helpers _ hhelper := ⟨operation, member, hhelper⟩

theorem Follows.make {con : Conventions compares} {environment : Environment} {spec : Spec}
    (h : con.Follows (.make environment spec)) : con.specs spec ∧ con.Offers environment := by
  refine ⟨h.specs spec (.inl rfl), ?_⟩
  intro compiler attempts source other hcompiler hanswer
  exact h.specs other (.inr ⟨compiler, attempts, source, hcompiler, hanswer⟩)

end Conventions

/-- Stores with the same helpers, all of them allowed, and with partials that
stand for each other. -/
structure Conventions.Registered {compares : Prop} (con : Conventions compares)
    (entries : Partial → Partial → Prop) (s t : Store) : Prop where
  helpers : s.helpers = t.helpers
  allowed : ∀ registry name helper, (s.helpersOf registry).get? name = some helper →
    con.helpers helper
  partials : ∀ registry, (s.partialsOf registry).Alike entries (t.partialsOf registry)
  freshHelpers : s.freshHelpers = t.freshHelpers
  freshPartials : s.freshPartials = t.freshPartials

namespace Conventions.Registered

variable {compares : Prop} {con : Conventions compares}
  {entries entries' : Partial → Partial → Prop} {s t : Store} {f g : Frame}

theorem mirrors (h : con.Registered entries s t) : s.Mirrors t :=
  ⟨h.helpers, fun registry => (h.partials registry).names⟩

theorem weaken (h : con.Registered entries s t) (hentries : ∀ a b, entries a b → entries' a b) :
    con.Registered entries' s t :=
  { h with partials := fun registry => (h.partials registry).weaken hentries }

theorem empty (con : Conventions compares) (entries : Partial → Partial → Prop) :
    con.Registered entries .empty .empty where
  helpers := rfl
  allowed := by
    intro registry name helper hfound
    cases hfound
  partials _ := .empty
  freshHelpers := rfl
  freshPartials := rfl

theorem helper_allowed (h : con.Registered entries s t) {name : String} {helper : Helper}
    (hfound : s.helper? f name = some helper) : con.helpers helper := by
  obtain ⟨registry, hregistered⟩ := Store.helper?_mem hfound
  exact h.allowed registry name helper hregistered

theorem partialHome_eq (h : con.Registered entries s t)
    (henvironment : f.environment = g.environment) (hoptions : f.options = g.options)
    (name : String) :
    s.partialHome f name = t.partialHome g name := by
  have hsame := Store.partialHome_congr
    (fun registry name => (h.partials registry).contains_eq name) f name
  rw [hsame]
  unfold Store.partialHome
  rw [henvironment, hoptions]

/-- A partial is found in the same place on both sides, if it is found. -/
theorem entry (h : con.Registered entries s t) (henvironment : f.environment = g.environment)
    (hoptions : f.options = g.options) (name : String) :
    Option.Rel entries (s.entry? f name) (t.entry? g name) := by
  unfold Store.entry?
  rw [h.partialHome_eq henvironment hoptions]
  exact (h.partials _).get name

theorem register (h : con.Registered entries s t) (registry : Nat) (name : String) {a b : Partial}
    (hentry : entries a b) :
    con.Registered entries (s.registerPartial registry name a)
      (t.registerPartial registry name b) :=
  { h with
    partials := by
      intro other
      rw [Store.partialsOf_registerPartial, Store.partialsOf_registerPartial]
      split
      · exact (h.partials registry).register name hentry
      · exact h.partials other }

/-- An entry is replaced on one side by another one that stands for the same. -/
theorem replace (h : con.Registered entries s t) {registry : Nat} {name : String} {a b : Partial}
    (hfound : (t.partialsOf registry).get? name = some b) (hentry : entries a b) :
    con.Registered entries (s.registerPartial registry name a) t :=
  { h with
    partials := by
      intro other
      rw [Store.partialsOf_registerPartial]
      split
      case isTrue hsame =>
        rw [hsame]
        exact (h.partials registry).replace hfound hentry
      case isFalse => exact h.partials other }

theorem setHelpers (h : con.Registered entries s t) (index : Nat) (registry : Registry Helper)
    (hallowed : ∀ name helper, registry.get? name = some helper → con.helpers helper)
    {fresh fresh' : Nat} (hfresh : fresh = fresh') :
    con.Registered entries
      { s with helpers := s.helpers.set index registry, freshHelpers := fresh }
      { t with helpers := t.helpers.set index registry, freshHelpers := fresh' } :=
  { h with
    helpers := by rw [h.helpers]
    allowed := by
      intro other name helper hfound
      by_cases hother : other = index
      · simp only [Store.helpersOf, hother, Table.get?_set_self, Option.getD_some] at hfound
        exact hallowed name helper hfound
      · simp only [Store.helpersOf, Table.get?_set_ne _ _ hother] at hfound
        exact h.allowed other name helper hfound
    freshHelpers := hfresh }

theorem openHelpers (h : con.Registered entries s t) {registry : Registry Helper}
    (hfollows : con.Follows (.openHelpers registry)) :
    con.Registered entries (s.newHelpers registry).2 (t.newHelpers registry).2 := by
  unfold Store.newHelpers
  rw [← h.freshHelpers]
  exact h.setHelpers _ registry (fun name helper hget => hfollows.helpers helper ⟨name, hget⟩) rfl

theorem registerHelper (h : con.Registered entries s t) {registry : Nat} {name : String}
    {helper : Helper} (hfollows : con.Follows (.registerHelper registry name helper)) :
    con.Registered entries (s.registerHelper registry name helper)
      (t.registerHelper registry name helper) := by
  unfold Store.registerHelper
  rw [← h.mirrors.helpersOf_eq]
  refine h.setHelpers registry ((s.helpersOf registry).register name helper) ?_ h.freshHelpers
  intro other helper' hget
  rw [Registry.get?_register] at hget
  split at hget
  · obtain rfl := Option.some.inj hget
    exact hfollows.helpers helper rfl
  · exact h.allowed registry other helper' hget

theorem openPartials (h : con.Registered entries s t) :
    con.Registered entries s.newPartials.2 t.newPartials.2 := by
  unfold Store.newPartials
  rw [← h.freshPartials]
  refine { h with partials := ?_, freshPartials := rfl }
  intro other
  by_cases hother : other = s.freshPartials
  · simp only [Store.partialsOf, hother, Table.get?_set_self, Option.getD_some]
    exact .empty
  · simp only [Store.partialsOf, Table.get?_set_ne _ _ hother]
    exact h.partials other

end Conventions.Registered

/-- What two runtimes obey so that hosts of theirs are alike: they obey the laws
of rendering, and what a host does besides keeps their stores alike. -/
structure Parallel.Serves {World : Type} (par : Parallel World) (reuse reuse' : Reuse)
    (allows : Operation → Prop) (templates : World → Template → Template → Prop) : Prop where
  lawful : par.Lawful reuse reuse'
  strict : ¬ par.lenient
  templates_grow : ∀ {w w' t u}, par.grows w w' → templates w t u → templates w' t u
  opens : ∀ {w t u}, templates w t u → ∀ options, par.opens w ⟨t, options⟩ ⟨u, options⟩
  openHelpers : ∀ {w s t registry}, par.stores w s t → allows (.openHelpers registry) →
    par.stores w (s.newHelpers registry).2 (t.newHelpers registry).2
  openPartials : ∀ {w s t}, par.stores w s t → par.stores w s.newPartials.2 t.newPartials.2
  make : ∀ {w s t environment spec}, par.stores w s t → allows (.make environment spec) →
    ∃ w', par.grows w w' ∧
      templates w' (s.newTemplate environment spec).1 (t.newTemplate environment spec).1 ∧
      par.stores w' (s.newTemplate environment spec).2 (t.newTemplate environment spec).2
  registerHelper : ∀ {w s t registry name helper}, par.stores w s t →
    allows (.registerHelper registry name helper) →
    par.stores w (s.registerHelper registry name helper) (t.registerHelper registry name helper)
  registerSource : ∀ {w s t}, par.stores w s t → ∀ registry name source,
    par.stores w (s.registerPartial registry name (.source source))
      (t.registerPartial registry name (.source source))
  registerTemplate : ∀ {w s t first second}, par.stores w s t → templates w first second →
    ∀ registry name,
    par.stores w (s.registerPartial registry name (.compiled first))
      (t.registerPartial registry name (.compiled second))

/-- Hosts whose stores and templates stand for each other. -/
structure Parallel.Hosts {World : Type} (par : Parallel World)
    (templates : World → Template → Template → Prop) (w : World) (a b : Host) : Prop where
  stores : par.stores w a.store b.store
  length : a.templates.length = b.templates.length
  templates : ∀ index : Nat, Option.Rel (templates w) a.templates[index]? b.templates[index]?

namespace Parallel.Serves

variable {World : Type} {par : Parallel World} {reuse reuse' : Reuse} {w w' : World}
  {allows : Operation → Prop} {templates : World → Template → Template → Prop} {a b : Host}

theorem grow (serves : par.Serves reuse reuse' allows templates)
    (h : par.Hosts templates w a b) (hgrown : par.grows w w') (index : Nat) :
    Option.Rel (templates w') a.templates[index]? b.templates[index]? :=
  (h.templates index).weaken fun _ _ htemplates => serves.templates_grow hgrown htemplates

theorem step (serves : par.Serves reuse reuse' allows templates)
    (h : par.Hosts templates w a b) {operation : Operation} (hallows : allows operation)
    (levels : Nat) :
    (a.step reuse levels operation).1 = (b.step reuse' levels operation).1 ∧
      ∃ w', par.Hosts templates w' (a.step reuse levels operation).2
        (b.step reuse' levels operation).2 := by
  cases operation with
  | openHelpers registry =>
      exact ⟨rfl, w, serves.openHelpers h.stores hallows, h.length, h.templates⟩
  | openPartials => exact ⟨rfl, w, serves.openPartials h.stores, h.length, h.templates⟩
  | make environment spec =>
      obtain ⟨w', hgrown, hnew, hstores⟩ := serves.make h.stores hallows
      refine ⟨rfl, w', hstores, ?_, ?_⟩
      · simp only [Host.step, List.length_append, h.length, List.length_singleton]
      · intro index
        simp only [Host.step, List.getElem?_append, h.length]
        split
        · exact serves.grow h hgrown index
        · cases index - b.templates.length with
          | zero => exact .some hnew
          | succ n => exact .none
  | registerHelper registry name helper =>
      exact ⟨rfl, w, serves.registerHelper h.stores hallows, h.length, h.templates⟩
  | registerSource registry name source =>
      exact ⟨rfl, w, serves.registerSource h.stores registry name source, h.length, h.templates⟩
  | registerTemplate registry name index =>
      have hindex := h.templates index
      simp only [Host.step]
      generalize a.templates[index]? = t at hindex
      generalize b.templates[index]? = u at hindex
      cases hindex with
      | none => exact ⟨rfl, w, h⟩
      | some htemplates =>
          exact ⟨rfl, w, serves.registerTemplate h.stores htemplates registry name, h.length,
            h.templates⟩
  | render index context helpers partials data =>
      have hindex := h.templates index
      simp only [Host.step]
      generalize a.templates[index]? = t at hindex
      generalize b.templates[index]? = u at hindex
      cases hindex with
      | none => exact ⟨rfl, w, h⟩
      | @some t u htemplates =>
          have htask : par.Tasks w (.template t context ⟨helpers, partials, data, 0⟩)
              (.template u context ⟨helpers, partials, data, 0⟩) :=
            .template (serves.opens htemplates _)
          have hends := serves.lawful.run_alike levels w _ _ htask _ _ h.stores
          obtain ⟨w', hgrown, hstores⟩ := hends.stores_alike serves.strict
          have hgrow := serves.grow h hgrown
          exact ⟨congrArg some (hends.outcome_eq serves.strict), w', hstores, h.length, hgrow⟩

theorem run (serves : par.Serves reuse reuse' allows templates)
    (h : par.Hosts templates w a b) {operations : List Operation}
    (hallows : ∀ operation ∈ operations, allows operation) (levels : Nat) :
    (a.run reuse levels operations).1 = (b.run reuse' levels operations).1 ∧
      ∃ w', par.Hosts templates w' (a.run reuse levels operations).2
        (b.run reuse' levels operations).2 := by
  induction operations generalizing w a b with
  | nil => exact ⟨rfl, w, h⟩
  | cons operation rest ih =>
      obtain ⟨houtcome, w₁, hnext⟩ := serves.step h (hallows operation List.mem_cons_self) levels
      obtain ⟨houtcomes, w₂, hlast⟩ :=
        ih hnext fun other member => hallows other (List.mem_cons_of_mem _ member)
      refine ⟨?_, w₂, hlast⟩
      simp only [Host.run]
      rw [houtcome, houtcomes]

end Parallel.Serves

end Stencil
