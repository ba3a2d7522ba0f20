import Stencil.Compiler
import Stencil.Proofs.Renaming
import Stencil.Proofs.Upkeep

/-!
Parties that render beside each other. What the renders of the first party do to
the store is out of sight of the second: they touch registries that only the
first one looks into, and the programs of templates that only the first one
renders. So a host may leave them out, and every render of the second party ends
as it did.
-/

namespace Stencil

namespace Isolation

variable {first second : Realm} {templates : List Template} {w w' : World} {s t after : Store}
  {f : Frame} {name : String}

namespace Stores

/-- A template that the second party does not know asks for a program. -/
theorem requestFirst (h : Stores first second templates w s t) {template : Template}
    (hmade : template.identity < s.freshTemplate)
    (hunknown : ∀ j, ¬ w.templates template.identity j) (index : Nat) (body : List Node)
    (data : Option Value) :
    Stores first second templates w
      (Render.requestProgram template index body data s).2 t := by
  have hleft := h.left.requests hmade index body data
  obtain ⟨_, hrun⟩ := template.requestProgram_run index body data s
  rw [hrun] at hleft ⊢
  exact { h with
    left := hleft
    programs := h.programs.grow (Slots.request_fresh _ _ _ _ _) (Nat.le_refl _)
    slots := by
      intro i j hij
      have hother : i ≠ template.identity := by
        rintro rfl
        exact hunknown j hij
      simp only [Store.slotsAt, Table.get?_set_ne _ _ hother]
      exact h.slots i j hij }

/-- The first party makes a template. -/
theorem makeFirst (h : Stores first second templates w s t) (environment : Environment)
    (spec : Spec) :
    Stores first second templates w (s.newTemplate environment spec).2 t ∧
      ∀ j, ¬ w.templates (s.newTemplate environment spec).1.identity j := by
  constructor
  · exact { h with
      left := h.left.newTemplate environment spec
      identities := h.identities.grow (Nat.le_succ _) (Nat.le_refl _)
      programs := h.programs.grow (Nat.le_succ _) (Nat.le_refl _) }
  · intro j hij
    exact Nat.lt_irrefl _ (h.identities.below _ j hij).1

/-- The first party registers a template where the second does not look. -/
theorem registerFirst (h : Stores first second templates w s t) {template : Template}
    (hserves : first.Serves template.environment) (hnumbers : s.Numbers template)
    (hunknown : ∀ j, ¬ w.templates template.identity j) {registry : Nat}
    (hregistry : ¬ second.registries registry) (name : String) :
    Stores first second templates w (s.registerPartial registry name (.compiled template)) t := by
  have helsewhere : ∀ other, second.registries other →
      (s.registerPartial registry name (.compiled template)).partialsOf other =
        s.partialsOf other := by
    intro other hother
    rw [Store.partialsOf_registerPartial, if_neg]
    rintro rfl
    exact hregistry hother
  refine { h with left := ?_, partials := ?_, others := ?_, shared := ?_ }
  · apply h.left.registerPartial
    rintro _ ⟨⟩
    exact hnumbers
  · intro other hother
    rw [helsewhere other hother]
    exact h.partials other hother
  · intro other name' template' hother hfound
    rw [Store.get?_registerPartial] at hfound
    split at hfound
    · cases hfound
      exact ⟨hserves, hunknown⟩
    · exact h.others other name' template' hother hfound
  · intro other name' entry hother hother'
    rw [helsewhere other hother']
    exact h.shared other name' entry hother hother'

/-- However the first party finds a partial, its template is out of sight of the
second. -/
theorem findsFirst {outcome : Outcome Template} (h : Stores first second templates w s t)
    (hruns : first.Runs f) (hfinds : f.Finds {} name s (outcome, after)) :
    Stores first second templates w after t ∧
      ∀ template, outcome = .done template →
        first.Serves template.environment ∧ ∀ j, ¬ w.templates template.identity j := by
  cases hfinds with
  | missing => exact ⟨h, fun _ hdone => nomatch hdone⟩
  | compiled found =>
      refine ⟨h, ?_⟩
      rintro _ ⟨⟩
      exact h.others _ name _ (hruns.home s name) found
  | unavailable => exact ⟨h, fun _ hdone => nomatch hdone⟩
  | rejected => exact ⟨h.congr h.pen rfl rfl, fun _ hdone => nomatch hdone⟩
  | @accepted source compiler spec template made found given answer makes =>
      have hapart : ¬ second.registries (s.partialHome f name) := by
        intro hsecond
        obtain ⟨_, hsource, hrefuse⟩ := h.shared _ name _ (hruns.home s name) hsecond found
        obtain rfl := Partial.source.inj hsource
        exact hrefuse _ spec (.inl hruns.serves) ⟨compiler, _, given, answer⟩
      have hattempted : Stores first second templates w
          (s.attempted ⟨s.partialHome f name, name, true⟩) t := h.congr h.pen rfl rfl
      have hmade := hattempted.makeFirst f.environment spec
      have hnumbers := Store.newTemplate_numbers
        (s.attempted ⟨s.partialHome f name, name, true⟩) f.environment spec
      have hbound : template.environment = f.environment := by
        cases makes
        rfl
      rw [makes] at hmade hnumbers
      have hserves : first.Serves template.environment := hbound ▸ hruns.serves
      refine ⟨hmade.1.registerFirst hserves hnumbers hmade.2 hapart name, ?_⟩
      rintro _ ⟨⟩
      exact ⟨hserves, hmade.2⟩

end Stores

/-- What the renders of the first party keep up, beside a store that they do not
touch: the second party can come to nothing that they do. -/
def upkeep (first second : Realm) (templates : List Template) (w : World) (t : Store) :
    Upkeep Nat where
  holds fresh s := Stores first second templates w s t ∧ fresh ≤ s.freshTemplate
  frames fresh f := first.Runs f ∧ f.template.identity < fresh ∧
    ∀ j, ¬ w.templates f.template.identity j
  opens fresh f := first.Runs f ∧ f.template.identity < fresh ∧
    ∀ j, ¬ w.templates f.template.identity j
  grows := (· ≤ ·)
  grows_refl := Nat.le_refl
  grows_trans := Nat.le_trans
  frames_grow hgrown hframe := ⟨hframe.1, Nat.lt_of_lt_of_le hframe.2.1 hgrown, hframe.2.2⟩

theorem upkeep_lawful (hwriting : w.writing = false) :
    (upkeep first second templates w t).Lawful where
  quiet := by
    rintro fresh s _ ⟨h, hfresh⟩ ⟨_, _, _, _, rfl⟩
    refine ⟨h.congr ?_ rfl rfl, hfresh⟩
    simp [hwriting]
  requests := by
    rintro fresh f s ⟨_, hmade, hunknown⟩ ⟨h, hfresh⟩ index body data
    have hafter := h.requestFirst (Nat.lt_of_lt_of_le hmade hfresh) hunknown index body data
    obtain ⟨_, hrun⟩ := f.template.requestProgram_run index body data s
    rw [hrun] at hafter ⊢
    exact ⟨hafter, hfresh⟩
  makes := by
    rintro fresh s ⟨h, hfresh⟩
    refine ⟨{ h with left := ?_, programs := ?_ }, hfresh⟩
    · exact h.left.congr rfl rfl (Nat.le_refl _) (Nat.le_succ _)
    · exact h.programs.grow (Nat.le_succ _) (Nat.le_refl _)
  finds := by
    rintro fresh f s name outcome after ⟨hruns, _, _⟩ ⟨h, hfresh⟩ hfinds
    obtain ⟨hafter, hdone⟩ := h.findsFirst hruns hfinds
    obtain ⟨hgrown, _, hnumbers⟩ := h.left.finds hfinds
    refine ⟨after.freshTemplate, Nat.le_trans hfresh hgrown, ⟨hafter, Nat.le_refl _⟩, ?_⟩
    intro template houtcome
    obtain ⟨hserves, hunknown⟩ := hdone template houtcome
    exact ⟨hruns.nested hserves, (hnumbers template houtcome).identity, hunknown⟩
  enter := by
    rintro fresh f s hopens ⟨h, hfresh⟩ _
    refine ⟨fresh, hopens, ⟨h.congr h.pen rfl rfl, hfresh⟩, ?_⟩
    rintro last after hgrown ⟨hafter, hlast⟩
    exact ⟨last, hgrown, hafter.congr hafter.pen rfl rfl, hlast⟩

/-- A host beside one that leaves out the renders of the first party. -/
structure Hosts (first second : Realm) (templates : List Template) (w : World) (a b : Host) :
    Prop where
  left : a.templates = templates
  right : b.templates = templates
  outside : w.writing = false
  stores : Stores first second templates w a.store b.store
  known : ∀ template ∈ templates, second.templates template → Templates second w template template

namespace Hosts

variable {a b : Host} {operation : Operation} {operations : List Operation}

/-- The second party sees nothing of a render of the first. -/
theorem stepFirst (h : Hosts first second templates w a b)
    (hrenders : first.Renders templates operation) (levels : Nat) :
    Hosts first second templates w (a.step {} levels operation).2 b := by
  cases hrenders with
  | @intro index context helpers partials data template made reached override =>
      have member : template ∈ templates := List.mem_of_getElem? made
      have hruns : first.Runs ⟨template, ⟨helpers, partials, data, 0⟩⟩ :=
        ⟨⟨template, reached, rfl⟩, override⟩
      have hopens : (upkeep first second templates w b.store).opens a.store.freshTemplate
          ⟨template, ⟨helpers, partials, data, 0⟩⟩ :=
        ⟨hruns, (h.stores.left.templates template member).identity,
          h.stores.hosts template member reached⟩
      obtain ⟨_, _, hafter, _⟩ := (upkeep_lawful h.outside).run_holds levels hopens
        ⟨h.stores, Nat.le_refl _⟩ context
      simp only [Host.step, h.left, made]
      exact { h with left := rfl, stores := hafter }

/-- A render of the second party ends the same on both sides. -/
theorem stepSecond (h : Hosts first second templates w a b)
    (hsteady : ∀ environment, second.Serves environment → environment.Steady)
    (hrenders : second.Renders templates operation) (levels : Nat) :
    (a.step {} levels operation).1 = (b.step {} levels operation).1 ∧
      ∃ w', Hosts first second templates w' (a.step {} levels operation).2
        (b.step {} levels operation).2 := by
  cases hrenders with
  | @intro index context helpers partials data template made reached override =>
      have member : template ∈ templates := List.mem_of_getElem? made
      have hframes : Frames second w ⟨template, ⟨helpers, partials, data, 0⟩⟩
          ⟨template, ⟨helpers, partials, data, 0⟩⟩ :=
        ⟨h.known template member reached, rfl, ⟨template, reached, rfl⟩, override⟩
      have htask : (parallel first second templates).Tasks w
          (.template template context ⟨helpers, partials, data, 0⟩)
          (.template template context ⟨helpers, partials, data, 0⟩) := .template hframes
      have hlawful := lawful first templates hsteady
      have hends := hlawful.run_alike levels w _ _ htask a.store b.store h.stores
      obtain ⟨w', hgrown, hstores⟩ := hends.stores_alike id
      simp only [Host.step, h.left, h.right, made]
      refine ⟨congrArg some (hends.outcome_eq id), w', rfl, rfl, ?_, hstores, ?_⟩
      · exact hgrown.writing.trans h.outside
      · exact fun other member' hother => (h.known other member' hother).grow hgrown.toKnows

/-- Both hosts go on, one of them without the renders of the first party. -/
theorem run (h : Hosts first second templates w a b)
    (hsteady : ∀ environment, second.Serves environment → environment.Steady)
    {ofFirst : Operation → Bool}
    (hfirst : ∀ operation ∈ operations, ofFirst operation = true →
      first.Renders templates operation)
    (hsecond : ∀ operation ∈ operations, ofFirst operation = false →
      second.Renders templates operation) (levels : Nat) :
    ∃ w', Hosts first second templates w' (a.run {} levels operations).2
      (b.run {} levels (operations.filter fun operation => !ofFirst operation)).2 := by
  induction operations generalizing w a b with
  | nil => exact ⟨w, h⟩
  | cons operation rest ih =>
      have hfirst' := fun other member => hfirst other (List.mem_cons_of_mem operation member)
      have hsecond' := fun other member => hsecond other (List.mem_cons_of_mem operation member)
      rw [List.filter_cons]
      cases hparty : ofFirst operation with
      | true =>
          have hnext := h.stepFirst (hfirst operation List.mem_cons_self hparty) levels
          exact ih hnext hfirst' hsecond'
      | false =>
          obtain ⟨_, w', hnext⟩ :=
            h.stepSecond hsteady (hsecond operation List.mem_cons_self hparty) levels
          exact ih hnext hfirst' hsecond'

end Hosts

/-- What is known at first: every number in use stands for itself. -/
def World.start (second : Realm) (store : Store) : World where
  templates i j := i = j ∧ i < store.freshTemplate ∧
    ∃ template, second.templates template ∧ template.identity = i
  programs i j := i = j ∧ i < store.freshProgram
  writing := false

theorem templates_self {template : Template} (hreached : second.templates template)
    (hnumbers : s.Numbers template) :
    Templates second (.start second s) template template where
  identity := ⟨rfl, hnumbers.identity, template, hreached, rfl⟩
  environment := rfl
  spec := rfl
  noop := ⟨⟨rfl, hnumbers.noop⟩, rfl, rfl, rfl⟩
  serves := ⟨template, hreached, rfl⟩

theorem entries_self {registry : Nat} {entry : Partial} (hclosed : second.Closed s)
    (hnumbered : s.Numbered templates) (hregistry : second.registries registry)
    (hfound : (s.partialsOf registry).get? name = some entry) :
    Entries second (.start second s) entry entry := by
  cases entry with
  | compiled template =>
      have hreached := hclosed registry name template hregistry hfound
      exact .compiled (templates_self hreached (hnumbered.partials registry name template hfound))
  | source text => exact .source text

/-- What the first party can come to is unknown to the second. -/
theorem start_unknown {template : Template} (hapart : first.Apart second s)
    (hreached : first.templates template) (j : Nat) :
    ¬ (World.start second s).templates template.identity j := by
  rintro ⟨rfl, _, other, hother, hsame⟩
  exact hapart.templates template other hreached hother hsame.symm

/-- A registry of both parties holds nothing but sources that are refused. -/
theorem start_shared {registry : Nat} {entry : Partial} (hapart : first.Apart second s)
    (hfirst : first.registries registry) (hsecond : second.registries registry)
    (hfound : (s.partialsOf registry).get? name = some entry) :
    ∃ source, entry = .source source ∧ first.Refuse second source := by
  cases entry with
  | compiled template =>
      have hreached := hapart.closed registry name template hfirst hfound
      have hreached' := hapart.closed' registry name template hsecond hfound
      exact absurd rfl (hapart.templates template template hreached hreached')
  | source text => exact ⟨text, rfl, hapart.sources registry name text hfirst hsecond hfound⟩

/-- Realms that are held apart begin out of sight of each other. -/
theorem Stores.start (hnumbered : s.Numbered templates) (hapart : first.Apart second s) :
    Stores first second templates (.start second s) s s where
  left := hnumbered
  right := hnumbered
  pen _ := rfl
  helpers := rfl
  identities := .same fun _ hknown => hknown.1
  programs := .same fun _ hbelow => hbelow
  partials registry hregistry :=
    ⟨rfl, fun _ => .same fun _ => entries_self hapart.closed' hnumbered hregistry⟩
  slots := by
    rintro i _ ⟨rfl, _⟩
    refine ⟨rfl, fun index => .same fun program hkept => ?_⟩
    exact ⟨⟨rfl, hnumbered.programs i index program hkept⟩, rfl, rfl, rfl⟩
  hosts _ _ hreached := start_unknown hapart hreached
  others registry name template hregistry hfound :=
    have hreached := hapart.closed registry name template hregistry hfound
    ⟨⟨template, hreached, rfl⟩, start_unknown hapart hreached⟩
  shared _ _ _ hfirst hsecond hfound := start_shared hapart hfirst hsecond hfound

theorem Hosts.start {host : Host} (hnumbered : host.Numbered)
    (hapart : first.Apart second host.store) :
    Hosts first second host.templates (.start second host.store) host host where
  left := rfl
  right := rfl
  outside := rfl
  stores := .start hnumbered hapart
  known template member hreached := templates_self hreached (hnumbered.templates template member)

end Isolation

/-- Parties whose realms are held apart do not disturb each other. Whatever a
host did before, and however the renders of two parties follow one another, a
render of the second party ends as it does when the renders of the first are
left out. -/
theorem Host.renders_isolated (first second : Realm)
    (hsteady : ∀ environment, second.Serves environment → environment.Steady) {host : Host}
    (hreached : host.Reached) (hapart : first.Apart second host.store) (levels : Nat)
    (ofFirst : Operation → Bool) (before : List Operation)
    (hfirst : ∀ operation ∈ before, ofFirst operation = true →
      first.Renders host.templates operation)
    (hsecond : ∀ operation ∈ before, ofFirst operation = false →
      second.Renders host.templates operation) (operation : Operation)
    (hrenders : second.Renders host.templates operation) :
    ((host.run {} levels before).2.step {} levels operation).1 =
      ((host.run {} levels (before.filter fun operation => !ofFirst operation)).2.step {} levels
        operation).1 := by
  have hstart := Isolation.Hosts.start hreached.numbered hapart
  obtain ⟨_, hbefore⟩ := hstart.run hsteady hfirst hsecond levels
  exact (hbefore.stepSecond hsteady hrenders levels).1

namespace SideBySide

def left : Environment := ⟨0, 0, {}, some .echo, .standard⟩

def right : Environment := ⟨1, 1, { maxPartialDepth := 1 }, some .echo, .standard⟩

/-- Two environments with a partial of the same name, and a registry for the
renders of both that holds a source which their compiler refuses. -/
def operations : List Operation :=
  [.openHelpers .empty, .openPartials, .openHelpers .empty, .openPartials, .openPartials,
    .registerSource 0 "p" "l", .registerSource 1 "p" "r", .registerSource 2 "q" "!no",
    .make left (.nodes [.inclusion "p" (.this none), .inclusion "q" (.this none)]),
    .make right (.nodes [.run (.cached 0 [] none) (.this none) none, .inclusion "p" (.this none),
      .cachedCount])]

def leftRender : Operation := .render 0 (.string "x") none (some 2) none

def rightRender : Operation := .render 1 (.string "y") none (some 2) none

def ofLeft : Operation → Bool
  | .render index _ _ _ _ => index == 0
  | _ => false

def first : Realm where
  templates template := template.identity = 0 ∧ template.environment = left
  registries registry := registry = 0 ∨ registry = 2
  homes := by
    rintro template ⟨_, hbound⟩
    simp [hbound, left]

def second : Realm where
  templates template := template.identity = 1 ∧ template.environment = right
  registries registry := registry = 1 ∨ registry = 2
  homes := by
    rintro template ⟨_, hbound⟩
    simp [hbound, right]

theorem reached : (Host.empty.run {} 4 operations).2.Reached := .run .empty 4 operations

theorem holds_sources {registry : Nat} (hregistry : registry < 3) {name : String}
    {entry : Partial} (hfound : ((Host.empty.run {} 4 operations).2.store.partialsOf
      registry).get? name = some entry) :
    ∃ source, entry = .source source ∧ (registry = 2 → source = "!no") := by
  obtain ⟨key, source, hentries, hrefused⟩ : ∃ key source,
      ((Host.empty.run {} 4 operations).2.store.partialsOf registry).entries =
        [(key, Partial.source source)] ∧ (registry = 2 → source = "!no") := by
    match registry with
    | 0 => exact ⟨"p", "l", rfl, by simp⟩
    | 1 => exact ⟨"p", "r", rfl, by simp⟩
    | 2 => exact ⟨"q", "!no", rfl, by simp⟩
  unfold Registry.get? at hfound
  rw [hentries] at hfound
  obtain ⟨_, rfl⟩ : key = name ∧ Partial.source source = entry := by
    simpa [field?] using hfound
  exact ⟨source, rfl, hrefused⟩

theorem serves {environment : Environment}
    (h : first.Serves environment ∨ second.Serves environment) :
    environment.compiler = some .echo := by
  rcases h with ⟨_, ⟨_, hbound⟩, rfl⟩ | ⟨_, ⟨_, hbound⟩, rfl⟩
  · simp [hbound, left]
  · simp [hbound, right]

theorem steady (environment : Environment) (h : second.Serves environment) :
    environment.Steady := by
  intro compiler hcompiler _ _ _
  obtain rfl := Option.some.inj ((serves (.inr h)).symm.trans hcompiler)
  rfl

/-- No registry holds a template, and what both parties may be given is refused. -/
theorem apart : first.Apart second (Host.empty.run {} 4 operations).2.store where
  closed := by
    rintro registry name template hregistry hfound
    obtain ⟨_, hsource, _⟩ := holds_sources (by simp [first] at hregistry; omega) hfound
    cases hsource
  closed' := by
    rintro registry name template hregistry hfound
    obtain ⟨_, hsource, _⟩ := holds_sources (by simp [second] at hregistry; omega) hfound
    cases hsource
  templates := by
    rintro t u ⟨ht, _⟩ ⟨hu, _⟩
    omega
  sources := by
    rintro registry name source hfirst hsecond hfound environment spec hserves
      ⟨compiler, attempts, hcompiler, hanswer⟩
    have hregistry : registry = 2 := by
      simp [first] at hfirst
      simp [second] at hsecond
      omega
    obtain ⟨_, hsource, hrefused⟩ := holds_sources (by omega) hfound
    obtain rfl := Partial.source.inj hsource
    obtain rfl := Option.some.inj ((serves hserves).symm.trans hcompiler)
    rw [hrefused hregistry] at hanswer
    cases hanswer

theorem left_renders : first.Renders (Host.empty.run {} 4 operations).2.templates leftRender :=
  .intro rfl ⟨rfl, rfl⟩ (by simp [first])

theorem right_renders : second.Renders (Host.empty.run {} 4 operations).2.templates rightRender :=
  .intro rfl ⟨rfl, rfl⟩ (by simp [second])

end SideBySide

/-- A render sees only what its own party did, for all that the other party
compiled and was refused before it. -/
theorem Host.renders_isolated_side_by_side :
    (((Host.empty.run {} 4 SideBySide.operations).2.run {} 4
        [SideBySide.leftRender, SideBySide.rightRender, SideBySide.leftRender]).2.step {} 4
      SideBySide.rightRender).1 = some (.done "r:y1") := by
  rw [Host.renders_isolated SideBySide.first SideBySide.second SideBySide.steady
    SideBySide.reached SideBySide.apart 4 SideBySide.ofLeft _ ?_ ?_ _ SideBySide.right_renders]
  · decide +kernel
  · intro operation member hparty
    simp only [List.mem_cons, List.not_mem_nil, or_false] at member
    rcases member with rfl | rfl | rfl
    · exact SideBySide.left_renders
    · cases hparty
    · exact SideBySide.left_renders
  · intro operation member hparty
    simp only [List.mem_cons, List.not_mem_nil, or_false] at member
    rcases member with rfl | rfl | rfl
    · cases hparty
    · exact SideBySide.right_renders
    · cases hparty

namespace SharedRegistry

def compiling : Environment := ⟨0, 0, {}, some .echo, .standard⟩

def plain : Environment := ⟨1, 1, {}, none, .standard⟩

/-- Two environments with a template each, that refers to a partial; of these
only the first one has a compiler. -/
def beginnings : List Operation :=
  [.openHelpers .empty, .openPartials, .openHelpers .empty, .openPartials, .openPartials,
    .make compiling (.nodes [.inclusion "p" (.this none)]),
    .make plain (.nodes [.inclusion "p" (.this none)])]

/-- A third environment, and a template of it that counts what it keeps. -/
def counting : List Operation :=
  [.openHelpers .empty, .openPartials,
    .make ⟨2, 3, {}, none, .standard⟩
      (.nodes [.cachedCount, .run (.cached 0 [] none) (.this none) none]),
    .registerTemplate 2 "p" 2]

def source : List Operation := beginnings ++ [.registerSource 2 "p" "p"]

def template : List Operation := beginnings ++ counting

def render (index : Nat) : Operation := .render index (.string "x") none (some 2) none

end SharedRegistry

/-- A registry that renders of two environments are given joins them: a source
that the one compiles is from then on a template that the other one can render,
and a template that is registered there keeps its programs for both. -/
theorem Host.renders_not_isolated :
    (((Host.empty.run {} 6 SharedRegistry.source).2.run {} 6
        [SharedRegistry.render 0]).2.step {} 6 (SharedRegistry.render 1)).1 =
      some (.done "p:x") ∧
    (((Host.empty.run {} 6 SharedRegistry.source).2.run {} 6 []).2.step {} 6
        (SharedRegistry.render 1)).1 =
      some (.failed (.compilationUnavailable "p")) ∧
    (((Host.empty.run {} 6 SharedRegistry.template).2.run {} 6
        [SharedRegistry.render 0]).2.step {} 6 (SharedRegistry.render 1)).1 =
      some (.done "1") ∧
    (((Host.empty.run {} 6 SharedRegistry.template).2.run {} 6 []).2.step {} 6
        (SharedRegistry.render 1)).1 =
      some (.done "0") := by
  decide +kernel

end Stencil
