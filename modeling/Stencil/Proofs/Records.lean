import Stencil.Compiler
import Stencil.Host
import Stencil.Proofs.ByteOrder
import Stencil.Proofs.Upkeep

/-!
What registries hold. A host that keeps records of all that it registers knows
what each registry answers, whatever was rendered meanwhile: the names are those
on record, a helper is the one that was registered last, and a partial is the one
that was registered last or, if that was a source, a template compiled from it.
So an environment that was begun with the built-in helpers never lacks those that
stand in for others.
-/

namespace Stencil

/-- What was registered as a partial: a source, or one of the templates of the
host. -/
inductive Registered where
  | source (text : String)
  | template (index : Nat)

/-- An entry of a registry that stands for what was registered. The templates of
the host are given in the order in which they were made. -/
inductive Registered.Held (templates : List Template) : Registered → Partial → Prop
  | template {index : Nat} {template : Template} (made : templates[index]? = some template) :
      Held templates (.template index) (.compiled template)
  | source (text : String) : Held templates (.source text) (.source text)
  | compiled {text : String} {template : Template}
      (compiles : template.environment.Compiles text template.spec) :
      Held templates (.source text) (.compiled template)

/-- The records of a host: what each registry was opened with and then given, in
the order of the registrations, and how many registries and templates there
are. -/
structure Records where
  helpers : Nat → List (String × Helper) := fun _ => []
  partials : Nat → List (String × Registered) := fun _ => []
  openedHelpers : Nat := 0
  openedPartials : Nat := 0
  made : Nat := 0

namespace Records

variable {α : Type}

/-- What was registered last under a name. -/
def last? (name : String) : List (String × α) → Option α
  | [] => none
  | (other, entry) :: rest => (last? name rest).or (if other = name then some entry else none)

/-- The lists of all registries with another one for this registry. -/
def write (lists : Nat → List (String × α)) (registry : Nat) (list : List (String × α)) :
    Nat → List (String × α) :=
  fun other => if other = registry then list else lists other

/-- The records after one more operation. -/
def add (records : Records) : Operation → Records
  | .openHelpers registry =>
    { records with
      helpers := write records.helpers records.openedHelpers registry.entries
      openedHelpers := records.openedHelpers + 1 }
  | .openPartials =>
    { records with
      partials := write records.partials records.openedPartials []
      openedPartials := records.openedPartials + 1 }
  | .make _ _ => { records with made := records.made + 1 }
  | .registerHelper registry name helper =>
    { records with
      helpers := write records.helpers registry (records.helpers registry ++ [(name, helper)]) }
  | .registerSource registry name source =>
    { records with
      partials := write records.partials registry
        (records.partials registry ++ [(name, .source source)]) }
  | .registerTemplate registry name index =>
    if index < records.made then
      { records with
        partials := write records.partials registry
          (records.partials registry ++ [(name, .template index)]) }
    else records
  | .render _ _ _ _ _ => records

/-- The records of a host that did all this. -/
def of (operations : List Operation) : Records := operations.foldl add {}

@[simp]
theorem write_self (lists : Nat → List (String × α)) (registry : Nat) (list : List (String × α)) :
    write lists registry list registry = list := if_pos rfl

theorem write_ne (lists : Nat → List (String × α)) {registry other : Nat}
    (list : List (String × α)) (h : other ≠ registry) :
    write lists registry list other = lists other := if_neg h

theorem last?_append (name : String) (first second : List (String × α)) :
    last? name (first ++ second) = (last? name second).or (last? name first) := by
  induction first with
  | nil => simp [last?]
  | cons entry rest ih => simp [last?, ih, Option.or_assoc]

theorem last?_concat (name other : String) (entry : α) (list : List (String × α)) :
    last? name (list ++ [(other, entry)]) = if name = other then some entry else last? name list := by
  rw [last?_append]
  by_cases h : name = other
  · simp [last?, h]
  · simp [last?, h, Ne.symm h]

theorem isSome_last?_iff {name : String} {list : List (String × α)} :
    (last? name list).isSome = true ↔ name ∈ list.map Prod.fst := by
  induction list with
  | nil => simp [last?]
  | cons entry rest ih =>
      by_cases h : entry.1 = name
      · simp [last?, h]
      · simp [last?, h, ih, Ne.symm h]

/-- In a registry no name is registered twice. -/
theorem last?_entries (registry : Registry α) (name : String) :
    last? name registry.entries = registry.get? name := by
  obtain ⟨entries, ordered⟩ := registry
  show last? name entries = field? name entries
  induction entries with
  | nil => rfl
  | cons entry rest ih =>
      obtain ⟨hfirst, hrest⟩ := List.pairwise_cons.mp ordered
      simp only [last?, field?, ih hrest]
      by_cases h : entry.1 = name
      · have habsent : field? name rest = none := by
          rw [← Option.not_isSome_iff_eq_none, isSome_field?_iff]
          intro member
          obtain ⟨other, hmember, hother⟩ := List.mem_map.mp member
          have hless := hfirst other hmember
          rw [h, hother] at hless
          exact absurd hless (String.lt_irrefl name)
        simp [h, habsent]
      · simp [h]

/-- What the records say is what the registries of the host answer. -/
structure Tells (records : Records) (host : Host) : Prop where
  openedHelpers : host.store.freshHelpers = records.openedHelpers
  openedPartials : host.store.freshPartials = records.openedPartials
  made : host.templates.length = records.made
  helpers : ∀ registry name,
    (host.store.helpersOf registry).get? name = last? name (records.helpers registry)
  partials : ∀ registry name,
    Option.Rel (Registered.Held host.templates) (last? name (records.partials registry))
      ((host.store.partialsOf registry).get? name)

end Records

/-- A store with the helpers that there were at the start, and with the partials
that are on record. -/
structure Store.Recorded (records : Records) (templates : List Template) (start store : Store) :
    Prop where
  helpers : store.helpers = start.helpers
  freshHelpers : store.freshHelpers = start.freshHelpers
  freshPartials : store.freshPartials = start.freshPartials
  partials : ∀ registry name,
    Option.Rel (Registered.Held templates) (Records.last? name (records.partials registry))
      ((store.partialsOf registry).get? name)

namespace Store.Recorded

variable {records : Records} {templates : List Template} {start store after : Store}
  {frame : Frame} {name : String}

theorem congr (h : Recorded records templates start store)
    (hhelpers : after.helpers = store.helpers) (hpartials : after.partials = store.partials)
    (hfreshHelpers : after.freshHelpers = store.freshHelpers)
    (hfreshPartials : after.freshPartials = store.freshPartials) :
    Recorded records templates start after where
  helpers := hhelpers.trans h.helpers
  freshHelpers := hfreshHelpers.trans h.freshHelpers
  freshPartials := hfreshPartials.trans h.freshPartials
  partials := by
    unfold Store.partialsOf
    rw [hpartials]
    exact h.partials

/-- The template of a source stands for the source in the records. -/
theorem settled {source : String} {template : Template}
    (h : Recorded records templates start store)
    (hfound : store.entry? frame name = some (.source source))
    (hcompiles : template.environment.Compiles source template.spec) :
    Recorded records templates start
      (store.registerPartial (store.partialHome frame name) name (.compiled template)) where
  helpers := h.helpers
  freshHelpers := h.freshHelpers
  freshPartials := h.freshPartials
  partials := by
    intro registry other
    rw [Store.get?_registerPartial]
    by_cases hsame : registry = store.partialHome frame name ∧ other = name
    · rw [if_pos hsame, hsame.1, hsame.2]
      have hentry := h.partials (store.partialHome frame name) name
      have hget : (store.partialsOf (store.partialHome frame name)).get? name =
          some (.source source) := hfound
      rw [hget] at hentry
      generalize Records.last? name (records.partials _) = record at hentry
      cases hentry with
      | some hheld =>
          cases hheld
          exact .some (.compiled hcompiles)
    · rw [if_neg hsame]
      exact h.partials registry other

/-- However a partial is found, what is registered stays on record. -/
theorem finds {outcome : Outcome Template} (h : Recorded records templates start store)
    (hfinds : frame.Finds {} name store (outcome, after)) :
    Recorded records templates start after := by
  cases hfinds with
  | missing => exact h
  | compiled => exact h
  | unavailable => exact h
  | rejected => exact h.congr rfl rfl rfl rfl
  | @accepted source compiler spec template made found given answer makes =>
      have hmade : Recorded records templates start made ∧
          made.entry? frame name = some (.source source) ∧
          made.partialHome frame name = store.partialHome frame name ∧
          template.environment.Compiles source template.spec := by
        cases makes
        exact ⟨h.congr rfl rfl rfl rfl, found, rfl, compiler, _, given, answer⟩
      obtain ⟨hrecorded, hentry, hhome, hcompiles⟩ := hmade
      rw [settled_kept, ← hhome]
      exact hrecorded.settled hentry hcompiles

/-- What every part of a render keeps on record. -/
def upkeep (records : Records) (templates : List Template) (start : Store) : Upkeep Unit where
  holds _ store := Recorded records templates start store
  frames _ _ := True
  opens _ _ := True

theorem upkeep_lawful : (upkeep records templates start).Lawful := by
  apply Upkeep.Lawful.of_entries
  · exact fun _ hopen => hopen
  · intro store after h same
    exact Recorded.congr h same.helpers same.partials same.freshHelpers same.freshPartials
  · intro frame store name outcome after _ h hfinds
    exact ⟨Recorded.finds h hfinds, fun _ _ => trivial⟩

end Store.Recorded

/-- A render leaves the helpers as they are, and the partials on record. -/
theorem Template.render_recorded {records : Records} {templates : List Template} {store : Store}
    (h : Store.Recorded records templates store store) (template : Template) (levels : Nat)
    (context : Value) (options : RenderOptions) :
    Store.Recorded records templates store
      (Task.run {} levels (.template template context options) store).2 := by
  have hopens : (Store.Recorded.upkeep records templates store).opens () ⟨template, options⟩ :=
    trivial
  obtain ⟨_, _, hafter⟩ := Store.Recorded.upkeep_lawful.run_holds levels hopens h context
  exact hafter

namespace Records.Tells

variable {records : Records} {host : Host}

theorem empty : Tells {} .empty where
  openedHelpers := rfl
  openedPartials := rfl
  made := rfl
  helpers _ _ := rfl
  partials _ _ := .none

theorem recorded (h : records.Tells host) :
    Store.Recorded records host.templates host.store host.store :=
  ⟨rfl, rfl, rfl, h.partials⟩

/-- One more partial is registered. -/
theorem registerPartial (h : records.Tells host) (registry : Nat) (name : String)
    {record : Registered} {entry : Partial} (hheld : record.Held host.templates entry) :
    Tells
      { records with
        partials := write records.partials registry
          (records.partials registry ++ [(name, record)]) }
      { host with store := host.store.registerPartial registry name entry } where
  openedHelpers := h.openedHelpers
  openedPartials := h.openedPartials
  made := h.made
  helpers := h.helpers
  partials := by
    intro other name'
    simp only [Store.get?_registerPartial]
    by_cases hregistry : other = registry
    · subst hregistry
      rw [write_self, last?_concat]
      by_cases hname : name' = name
      · simp only [hname, and_self, if_true]
        exact .some hheld
      · simp only [hname, and_false, if_false]
        exact h.partials other name'
    · rw [write_ne _ _ hregistry]
      simp only [hregistry, false_and, if_false]
      exact h.partials other name'

/-- More templates of the host hold what was registered before. -/
theorem weaken {templates more : List Template} {record : Option Registered}
    {entry : Option Partial} (h : Option.Rel (Registered.Held templates) record entry) :
    Option.Rel (Registered.Held (templates ++ more)) record entry := by
  cases h with
  | none => exact .none
  | some hheld =>
      cases hheld with
      | template made =>
          obtain ⟨hlength, _⟩ := List.getElem?_eq_some_iff.mp made
          exact .some (.template ((List.getElem?_append_left hlength).trans made))
      | source text => exact .some (.source text)
      | compiled compiles => exact .some (.compiled compiles)

/-- The records tell of every operation. -/
theorem step (h : records.Tells host) (levels : Nat) (operation : Operation) :
    (records.add operation).Tells (host.step {} levels operation).2 := by
  cases operation with
  | openHelpers content =>
      refine ⟨by simp [Records.add, Host.step, Store.newHelpers, h.openedHelpers],
        h.openedPartials, h.made, ?_, h.partials⟩
      intro registry name
      simp only [Host.step, Store.newHelpers, Store.helpersOf, Records.add, ← h.openedHelpers]
      by_cases hnew : registry = host.store.freshHelpers
      · rw [hnew, write_self, Table.get?_set_self, Option.getD_some, last?_entries]
      · rw [write_ne _ _ hnew, Table.get?_set_ne _ _ hnew]
        exact h.helpers registry name
  | openPartials =>
      refine ⟨h.openedHelpers, by simp [Records.add, Host.step, Store.newPartials,
        h.openedPartials], h.made, h.helpers, ?_⟩
      intro registry name
      simp only [Host.step, Store.get?_newPartials, Records.add, ← h.openedPartials]
      split
      case isTrue hnew =>
        rw [hnew, write_self]
        exact .none
      case isFalse hnew =>
        rw [write_ne _ _ hnew]
        exact h.partials registry name
  | make environment spec =>
      refine ⟨h.openedHelpers, h.openedPartials, ?_, h.helpers, ?_⟩
      · simp [Records.add, Host.step, h.made]
      · intro registry name
        exact weaken (h.partials registry name)
  | registerHelper registry name helper =>
      refine ⟨h.openedHelpers, h.openedPartials, h.made, ?_, h.partials⟩
      intro other name'
      simp only [Host.step, Store.registerHelper, Store.helpersOf, Records.add]
      by_cases hregistry : other = registry
      · subst hregistry
        rw [write_self, Table.get?_set_self, Option.getD_some, last?_concat,
          Registry.get?_register]
        split
        · rfl
        · exact h.helpers other name'
      · rw [write_ne _ _ hregistry, Table.get?_set_ne _ _ hregistry]
        exact h.helpers other name'
  | registerSource registry name source => exact h.registerPartial registry name (.source source)
  | registerTemplate registry name index =>
      cases hfound : host.templates[index]? with
      | none =>
          have hlength : host.templates.length ≤ index := List.getElem?_eq_none_iff.mp hfound
          have hmade : ¬ index < records.made := by
            rw [← h.made]
            omega
          simpa only [Records.add, Host.step, hmade, hfound, if_false] using h
      | some template =>
          obtain ⟨hlength, _⟩ := List.getElem?_eq_some_iff.mp hfound
          have hmade : index < records.made := by
            rw [← h.made]
            exact hlength
          simp only [Records.add, Host.step, hmade, hfound, if_true]
          exact h.registerPartial registry name (.template hfound)
  | render index context helpers partials data =>
      cases hfound : host.templates[index]? with
      | none => simpa only [Records.add, Host.step, hfound] using h
      | some template =>
          have hrender := Template.render_recorded h.recorded template levels context
            ⟨helpers, partials, data, 0⟩
          simp only [Records.add, Host.step, hfound]
          refine ⟨hrender.freshHelpers.trans h.openedHelpers,
            hrender.freshPartials.trans h.openedPartials, h.made, ?_, hrender.partials⟩
          intro registry name
          unfold Store.helpersOf
          rw [hrender.helpers]
          exact h.helpers registry name

theorem run (h : records.Tells host) (levels : Nat) (operations : List Operation) :
    (operations.foldl add records).Tells (host.run {} levels operations).2 := by
  induction operations generalizing records host with
  | nil => exact h
  | cons operation rest ih => exact ih (h.step levels operation)

end Records.Tells

namespace Records

variable {records : Records} {registry : Nat}

/-- What a registry was begun with stays on record. -/
theorem add_begins {entries : List (String × Helper)} (h : registry < records.openedHelpers)
    (hbegun : entries <+: records.helpers registry) (operation : Operation) :
    registry < (records.add operation).openedHelpers ∧
      entries <+: (records.add operation).helpers registry := by
  cases operation with
  | openHelpers content =>
      refine ⟨Nat.lt_succ_of_lt h, ?_⟩
      simp only [add]
      rw [write_ne _ _ (Nat.ne_of_lt h)]
      exact hbegun
  | openPartials => exact ⟨h, hbegun⟩
  | make environment spec => exact ⟨h, hbegun⟩
  | registerHelper other name helper =>
      refine ⟨h, ?_⟩
      simp only [add]
      by_cases hother : registry = other
      · subst hother
        rw [write_self]
        exact hbegun.trans (List.prefix_append _ _)
      · rw [write_ne _ _ hother]
        exact hbegun
  | registerSource other name source => exact ⟨h, hbegun⟩
  | registerTemplate other name index =>
      simp only [add]
      split
      · exact ⟨h, hbegun⟩
      · exact ⟨h, hbegun⟩
  | render index context helpers partials data => exact ⟨h, hbegun⟩

theorem foldl_begins {entries : List (String × Helper)} (h : registry < records.openedHelpers)
    (hbegun : entries <+: records.helpers registry) (operations : List Operation) :
    entries <+: (operations.foldl add records).helpers registry := by
  induction operations generalizing records with
  | nil => exact hbegun
  | cons operation rest ih =>
      obtain ⟨hopened, hstill⟩ := add_begins h hbegun operation
      exact ih hopened hstill

end Records

/-- The operations that begin an environment: they open a registry with the
built-in helpers, and one for partials. -/
def Environment.beginnings : List Operation := [.openHelpers Builtin.registry, .openPartials]

/-- They leave the store of a new environment behind. -/
theorem Environment.beginnings_run (host : Host) (levels : Nat) (settings : Settings)
    (compiler : Option Compiler) (logger : Logger) :
    (host.run {} levels beginnings).2 =
      { host with store := (host.store.newEnvironment settings compiler logger).2 } := rfl

/-- The built-in helpers stay on record for an environment that was begun with
them. -/
theorem Records.of_environment (earlier later : List Operation) (levels : Nat)
    (settings : Settings) (compiler : Option Compiler) (logger : Logger) :
    Builtin.registry.entries <+:
      (Records.of (earlier ++ Environment.beginnings ++ later)).helpers
        ((Host.empty.run {} levels earlier).2.store.newEnvironment settings compiler
          logger).1.helpers := by
  have htells := Records.Tells.empty.run levels earlier
  have hnumber : ((Host.empty.run {} levels earlier).2.store.newEnvironment settings compiler
      logger).1.helpers = (earlier.foldl add {}).openedHelpers := htells.openedHelpers
  rw [hnumber]
  simp only [Records.of, List.foldl_append]
  apply foldl_begins
  · exact Nat.lt_succ_self _
  · simp [Environment.beginnings, add]

/-- A frame that finds the helpers which stand in for others never does without
them: an unknown helper is left to the one of them, and a block whose head is a
value to the other. -/
structure Frame.StandsIn (frame : Frame) (store : Store) (missing block : Helper) : Prop where
  findsMissing : store.helper? frame Builtin.helperMissing.name = some missing
  findsBlock : store.helper? frame Builtin.blockHelperMissing.name = some block
  calls : ∀ worker name scope context options,
    frame.callHelper worker name scope context options store =
      ((store.helper? frame name).elim
        (missing.action.call worker frame scope (.string name) options)
        fun helper => helper.action.call worker frame scope context options) store
  blocks : ∀ worker scope context options,
    frame.blockHelperMissing worker scope context options store =
      block.action.call worker frame scope context options store

theorem Frame.standsIn {frame : Frame} {store : Store} {missing block : Helper}
    (hmissing : store.helper? frame Builtin.helperMissing.name = some missing)
    (hblock : store.helper? frame Builtin.blockHelperMissing.name = some block) :
    frame.StandsIn store missing block where
  findsMissing := hmissing
  findsBlock := hblock
  calls := by
    intro worker name scope context options
    unfold Frame.callHelper
    simp only [Render.bind_run, Frame.helper?, Render.look]
    cases store.helper? frame name with
    | some helper => rfl
    | none => simp only [Render.bind_run, Render.look, hmissing, Option.elim]
  blocks := by
    intro worker scope context options
    unfold Frame.blockHelperMissing
    simp only [Render.bind_run, Frame.helper?, Render.look, hblock]

/-- What the registry of an environment holds is found in all its frames, if the
caller supplies nothing of that name. -/
theorem Store.isSome_helper? {store : Store} {frame : Frame} {name : String}
    (h : ((store.helpersOf frame.environment.helpers).get? name).isSome = true) :
    ∃ helper, store.helper? frame name = some helper := by
  rw [← Option.isSome_iff_exists]
  simp [Store.helper?, h]

/-- Registries hold what was registered last, whatever is rendered. Their names
are in the order of their bytes and are those that were registered; a helper is
the one registered last, with the negation it was registered with or none; and
a partial is the one registered last, or a template that was compiled from it.
No render changes a helper. So in an environment that was begun with the
built-in helpers every frame finds the helpers that stand in for others. -/
theorem Host.registries_hold_last (levels : Nat) (operations : List Operation) :
    let records := Records.of operations
    let host := (Host.empty.run {} levels operations).2
    (∀ registry,
      (host.store.helpersOf registry).names.Pairwise (Text.bytes · < Text.bytes ·) ∧
      (host.store.partialsOf registry).names.Pairwise (Text.bytes · < Text.bytes ·) ∧
      ∀ name,
        (name ∈ (host.store.helpersOf registry).names ↔
          name ∈ (records.helpers registry).map Prod.fst) ∧
        (name ∈ (host.store.partialsOf registry).names ↔
          name ∈ (records.partials registry).map Prod.fst) ∧
        (host.store.helpersOf registry).get? name =
          Records.last? name (records.helpers registry) ∧
        Option.Rel (Registered.Held host.templates)
          (Records.last? name (records.partials registry))
          ((host.store.partialsOf registry).get? name)) ∧
    (∀ (template : Template) (context : Value) (options : RenderOptions) (more : Nat),
      (Task.run {} more (.template template context options) host.store).2.helpers =
        host.store.helpers) ∧
    ∀ (earlier later : List Operation) (settings : Settings) (compiler : Option Compiler)
        (logger : Logger),
      operations = earlier ++ Environment.beginnings ++ later →
      let environment := ((Host.empty.run {} levels earlier).2.store.newEnvironment settings
        compiler logger).1
      (∀ helper : Builtin, helper.name ∈ (records.helpers environment.helpers).map Prod.fst) ∧
      ∀ (frame : Frame) (store : Store), frame.environment = environment →
        store.helpers = host.store.helpers →
        ∃ missing block, frame.StandsIn store missing block := by
  intro records host
  have htells : records.Tells host := Records.Tells.empty.run levels operations
  refine ⟨?_, ?_, ?_⟩
  · intro registry
    have hordered : ∀ {α : Type} (content : Registry α),
        content.names.Pairwise (Text.bytes · < Text.bytes ·) :=
      fun content => content.names_pairwise.imp Text.bytes_lt
    refine ⟨hordered _, hordered _, fun name => ⟨?_, ?_, ?_, ?_⟩⟩
    · rw [Registry.mem_names, htells.helpers, Records.isSome_last?_iff]
    · rw [Registry.mem_names, ← Records.isSome_last?_iff,
        (htells.partials registry name).isSome_eq]
    · exact htells.helpers registry name
    · exact htells.partials registry name
  · intro template context options more
    exact (template.render_recorded htells.recorded more context options).helpers
  · intro earlier later settings compiler logger hoperations environment
    have hbegun : Builtin.registry.entries <+: records.helpers environment.helpers := by
      show _ <+: (Records.of operations).helpers _
      rw [hoperations]
      exact Records.of_environment earlier later levels settings compiler logger
    have hbuiltin : ∀ helper : Builtin,
        helper.name ∈ (records.helpers environment.helpers).map Prod.fst := by
      intro helper
      apply (hbegun.map Prod.fst).subset
      cases helper <;> decide +kernel
    refine ⟨hbuiltin, ?_⟩
    intro frame store henvironment hhelpers
    have hheld : ∀ helper : Builtin, ∃ found, store.helper? frame helper.name = some found := by
      intro helper
      apply Store.isSome_helper?
      unfold Store.helpersOf
      rw [hhelpers, henvironment]
      show ((host.store.helpersOf environment.helpers).get? helper.name).isSome = true
      rw [htells.helpers, Records.isSome_last?_iff]
      exact hbuiltin helper
    obtain ⟨missing, hmissing⟩ := hheld .helperMissing
    obtain ⟨block, hblock⟩ := hheld .blockHelperMissing
    exact ⟨missing, block, Frame.standsIn hmissing hblock⟩

namespace BusyRegistries

def environment : Environment := ⟨0, 0, {}, some .echo, .standard⟩

/-- A helper takes the place of another one and its negation; one partial is
compiled, and the one of that name that a render is given is refused. -/
def later : List Operation :=
  [.openHelpers .empty, .openPartials,
    .registerHelper 1 "each" ⟨.builtin .within, some (.builtin .unless)⟩,
    .registerHelper 1 "each" ⟨.builtin .ifTruthy, none⟩,
    .registerSource 0 "p" "x", .registerSource 1 "p" "!no",
    .make environment (.nodes [.inclusion "p" (.this none)]),
    .render 0 (.bool true) none none none, .render 0 .null (some 1) (some 1) none]

def operations : List Operation := [] ++ Environment.beginnings ++ later

def frame : Frame := ⟨⟨0, environment, .nodes [], ⟨0, [], none, []⟩⟩, ⟨some 1, some 1, none, 3⟩⟩

theorem ends : (Host.empty.run {} 4 operations).1 =
    [.done "x:true", .failed (.compilation "p" (.text "no"))] := by decide +kernel

theorem last_each : Records.last? "each" ((Records.of operations).helpers 1) =
    some ⟨.builtin .ifTruthy, none⟩ := by
  simp [operations, Environment.beginnings, later, Records.of, Records.add, Records.write,
    Registry.empty, Records.last?]

theorem last_p : Records.last? "p" ((Records.of operations).partials 0) =
    some (.source "x") := by
  simp [operations, Environment.beginnings, later, Records.of, Records.add, Records.write,
    Records.last?]

theorem operations_eq : operations = [] ++ Environment.beginnings ++ later := rfl

theorem begun : frame.environment =
    ((Host.empty.run {} 4 []).2.store.newEnvironment {} (some .echo) .standard).1 := rfl

end BusyRegistries

/-- After a render that compiles and one that fails, the registries hold what
they were given last. -/
theorem Host.registries_hold_last_busy :
    (Host.empty.run {} 4 BusyRegistries.operations).1 =
      [.done "x:true", .failed (.compilation "p" (.text "no"))] ∧
    ((Host.empty.run {} 4 BusyRegistries.operations).2.store.helpersOf 1).get? "each" =
      some ⟨.builtin .ifTruthy, none⟩ ∧
    Option.Rel
      (Registered.Held (Host.empty.run {} 4 BusyRegistries.operations).2.templates)
      (some (.source "x"))
      (((Host.empty.run {} 4 BusyRegistries.operations).2.store.partialsOf 0).get? "p") ∧
    ∃ missing block, BusyRegistries.frame.StandsIn
      (Host.empty.run {} 4 BusyRegistries.operations).2.store missing block := by
  obtain ⟨hholds, _, hstands⟩ := Host.registries_hold_last 4 BusyRegistries.operations
  refine ⟨BusyRegistries.ends, ?_, ?_, ?_⟩
  · rw [← BusyRegistries.last_each]
    exact ((hholds 1).2.2 "each").2.2.1
  · rw [← BusyRegistries.last_p]
    exact ((hholds 0).2.2 "p").2.2.2
  · obtain ⟨_, hframes⟩ := hstands [] BusyRegistries.later {} (some .echo) .standard
      BusyRegistries.operations_eq
    exact hframes BusyRegistries.frame _ BusyRegistries.begun rfl

end Stencil
