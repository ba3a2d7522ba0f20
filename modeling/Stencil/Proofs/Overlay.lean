import Mathlib.Data.List.Sort
import Stencil.Proofs.Keeping
import Stencil.Proofs.Likeness.Runs

/-!
Registries of the caller as an overlay. A render that is given registries of its
own goes as if all their entries had been registered in the environment before
it. What is looked up is the same on both sides and stays so, for a template
that takes the place of a source does that wherever its name is found.
-/

namespace Stencil

/-- What a program may do that sees registries only by looking up names. -/
def Licence.lookups : Licence := { Licence.free with options := False }

namespace Store

/-- The store after helpers were registered one after another. -/
def registerHelpers (store : Store) (registry : Nat) (entries : List (String × Helper)) : Store :=
  entries.foldl (fun store entry => store.registerHelper registry entry.1 entry.2) store

def registerPartials (store : Store) (registry : Nat) (entries : List (String × Partial)) :
    Store :=
  entries.foldl (fun store entry => store.registerPartial registry entry.1 entry.2) store

/-- The store after every entry of the caller's registries was registered in
those of an environment. -/
def overlaid (store : Store) (environment : Environment) (options : RenderOptions) : Store :=
  let helpers := (options.helpers.map fun r => (store.helpersOf r).entries).getD []
  let partials := (options.partials.map fun r => (store.partialsOf r).entries).getD []
  (store.registerHelpers environment.helpers helpers).registerPartials environment.partials
    partials

theorem helpersOf_registerHelper (store : Store) (registry : Nat) (name : String)
    (helper : Helper) :
    (store.registerHelper registry name helper).helpersOf registry =
      (store.helpersOf registry).register name helper := by
  unfold registerHelper
  rw [helpersOf, Table.get?_set_self, Option.getD_some]

theorem get?_registerHelper (store : Store) (registry other : Nat) (name name' : String)
    (helper : Helper) :
    ((store.registerHelper registry name helper).helpersOf other).get? name' =
      if other = registry ∧ name' = name then some helper
      else (store.helpersOf other).get? name' := by
  by_cases hregistry : other = registry
  · subst hregistry
    rw [helpersOf_registerHelper, Registry.get?_register]
    simp
  · rw [if_neg fun h => hregistry h.1]
    unfold registerHelper helpersOf
    rw [Table.get?_set_ne _ _ hregistry]

/-- The fields of which one is the last with its key. -/
theorem field?_of_ordered {α : Type} {key name : String} {value : α}
    {rest : List (String × α)} (h : Ordered ((key, value) :: rest)) :
    field? name ((key, value) :: rest) =
      (field? name rest).or (if name = key then some value else none) := by
  by_cases hname : name = key
  · have hlater : field? name rest = none := by
      rw [← Option.not_isSome_iff_eq_none, isSome_field?_iff, List.mem_map]
      rintro ⟨entry, member, hentry⟩
      have hless : key < entry.1 := (List.pairwise_cons.mp h).1 entry member
      rw [hentry, hname] at hless
      exact String.lt_irrefl key hless
    simp [field?, hname, hname ▸ hlater]
  · simp [field?, hname, Ne.symm hname]

theorem get?_registerHelpers (store : Store) (registry : Nat) (name : String)
    {entries : List (String × Helper)} (h : Ordered entries) :
    ((store.registerHelpers registry entries).helpersOf registry).get? name =
      (field? name entries).or ((store.helpersOf registry).get? name) := by
  induction entries generalizing store with
  | nil => rfl
  | cons entry rest ih =>
      have hrest : Ordered rest := (List.pairwise_cons.mp h).2
      have hstep := ih (store.registerHelper registry entry.1 entry.2) hrest
      rw [helpersOf_registerHelper, Registry.get?_register] at hstep
      rw [field?_of_ordered h, Option.or_assoc]
      refine hstep.trans (congrArg _ ?_)
      split <;> rfl

theorem get?_registerPartials (store : Store) (registry : Nat) (name : String)
    {entries : List (String × Partial)} (h : Ordered entries) :
    ((store.registerPartials registry entries).partialsOf registry).get? name =
      (field? name entries).or ((store.partialsOf registry).get? name) := by
  induction entries generalizing store with
  | nil => rfl
  | cons entry rest ih =>
      have hrest : Ordered rest := (List.pairwise_cons.mp h).2
      have hstep := ih (store.registerPartial registry entry.1 entry.2) hrest
      rw [get?_registerPartial] at hstep
      rw [field?_of_ordered h, Option.or_assoc]
      refine hstep.trans (congrArg _ ?_)
      by_cases hname : name = entry.1
      · rw [if_pos ⟨rfl, hname⟩, if_pos hname]
        rfl
      · rw [if_neg fun h => hname h.2, if_neg hname]
        rfl

theorem registerHelpers_eq (store : Store) (registry : Nat) (entries : List (String × Helper)) :
    ∃ helpers, store.registerHelpers registry entries = { store with helpers } := by
  induction entries generalizing store with
  | nil => exact ⟨store.helpers, rfl⟩
  | cons entry rest ih =>
      obtain ⟨helpers, h⟩ := ih (store.registerHelper registry entry.1 entry.2)
      exact ⟨helpers, h⟩

theorem registerPartials_eq (store : Store) (registry : Nat)
    (entries : List (String × Partial)) :
    ∃ partials, store.registerPartials registry entries = { store with partials } := by
  induction entries generalizing store with
  | nil => exact ⟨store.partials, rfl⟩
  | cons entry rest ih =>
      obtain ⟨partials, h⟩ := ih (store.registerPartial registry entry.1 entry.2)
      exact ⟨partials, h⟩

/-- What was registered touches nothing but registries. -/
theorem overlaid_eq (store : Store) (environment : Environment) (options : RenderOptions) :
    ∃ helpers partials, store.overlaid environment options = { store with helpers, partials } := by
  unfold overlaid
  generalize (options.helpers.map fun r => (store.helpersOf r).entries).getD [] = helpers
  generalize (options.partials.map fun r => (store.partialsOf r).entries).getD [] = partials
  obtain ⟨helpers', h⟩ := store.registerHelpers_eq environment.helpers helpers
  obtain ⟨partials', h'⟩ := registerPartials_eq (store.registerHelpers environment.helpers helpers)
    environment.partials partials
  exact ⟨helpers', partials', by rw [h', h]⟩

theorem get?_overlaid_helpers (store : Store) (environment : Environment)
    (options : RenderOptions) (name : String) :
    ((store.overlaid environment options).helpersOf environment.helpers).get? name =
      (options.helpers.bind fun registry => (store.helpersOf registry).get? name).or
        ((store.helpersOf environment.helpers).get? name) := by
  unfold overlaid
  obtain ⟨partials, hpartials⟩ := registerPartials_eq
    (store.registerHelpers environment.helpers
      ((options.helpers.map fun r => (store.helpersOf r).entries).getD []))
    environment.partials ((options.partials.map fun r => (store.partialsOf r).entries).getD [])
  rw [hpartials]
  cases options.helpers with
  | none => rfl
  | some registry =>
      exact store.get?_registerHelpers environment.helpers name (store.helpersOf registry).ordered

theorem get?_overlaid_partials (store : Store) (environment : Environment)
    (options : RenderOptions) (name : String) :
    ((store.overlaid environment options).partialsOf environment.partials).get? name =
      (options.partials.bind fun registry => (store.partialsOf registry).get? name).or
        ((store.partialsOf environment.partials).get? name) := by
  unfold overlaid
  obtain ⟨helpers, hhelpers⟩ := store.registerHelpers_eq environment.helpers
    ((options.helpers.map fun r => (store.helpersOf r).entries).getD [])
  simp only [hhelpers]
  cases options.partials with
  | none => rfl
  | some registry =>
      exact get?_registerPartials { store with helpers } environment.partials name
        (store.partialsOf registry).ordered

/-- A partial is looked up like a helper: in the registry of the caller, else in
the one of the environment. -/
theorem entry?_eq (store : Store) (frame : Frame) (name : String) :
    store.entry? frame name =
      (frame.options.partials.bind fun registry => (store.partialsOf registry).get? name).or
        ((store.partialsOf frame.environment.partials).get? name) := by
  unfold entry? partialHome
  cases frame.options.partials with
  | none => rfl
  | some registry =>
      simp only [Option.bind_some]
      cases hfound : (store.partialsOf registry).get? name with
      | none => simp [Registry.contains, hfound]
      | some entry => simp [Registry.contains, hfound]

end Store

/-- Two frames that look up the same names in the same registries. -/
structure Frame.Sees (root frame : Frame) : Prop where
  environment : frame.environment = root.environment
  helpers : frame.options.helpers = root.options.helpers
  partials : frame.options.partials = root.options.partials

namespace Frame.Sees

variable {root frame : Frame}

theorem helper?_eq (h : root.Sees frame) (store : Store) (name : String) :
    store.helper? frame name = store.helper? root name := by
  unfold Store.helper?
  rw [h.environment, h.helpers]

theorem partialHome_eq (h : root.Sees frame) (store : Store) (name : String) :
    store.partialHome frame name = store.partialHome root name := by
  unfold Store.partialHome
  rw [h.environment, h.partials]

theorem entry?_eq (h : root.Sees frame) (store : Store) (name : String) :
    store.entry? frame name = store.entry? root name := by
  unfold Store.entry?
  rw [h.partialHome_eq]

end Frame.Sees

namespace Page

theorem mem_unionNames (first second : List String) (name : String) :
    name ∈ unionNames first second ↔ name ∈ first ∨ name ∈ second := by
  have hfold : ∀ (names : List String) (registry : Registry Unit),
      name ∈ (names.foldl (fun names name => names.register name ()) registry).names ↔
        name ∈ names ∨ name ∈ registry.names := by
    intro names
    induction names with
    | nil => simp
    | cons other rest ih =>
        intro registry
        rw [List.foldl_cons, ih, Registry.mem_names, Registry.mem_names, Registry.get?_register]
        by_cases hname : name = other
        · simp [hname]
        · simp [hname]
  have hempty : name ∉ (Registry.empty : Registry Unit).names := List.not_mem_nil
  rw [unionNames, hfold, List.mem_append]
  simp [hempty]

/-- Names in order are determined by which names they are. -/
theorem unionNames_eq {first second first' second' : List String}
    (h : ∀ name, name ∈ first ∨ name ∈ second ↔ name ∈ first' ∨ name ∈ second') :
    unionNames first second = unionNames first' second' := by
  refine List.Pairwise.eq_of_mem_iff (Registry.names_pairwise _) (Registry.names_pairwise _) ?_
  intro name
  rw [mem_unionNames, mem_unionNames]
  exact h name

theorem mem_registryNames {α : Type} (registryOf : Nat → Registry α) (own : Nat)
    (override : Option Nat) (name : String) :
    name ∈ (registryOf own).names ∨
        name ∈ (override.map fun r => (registryOf r).names).getD [] ↔
      ((override.bind fun r => (registryOf r).get? name).or
        ((registryOf own).get? name)).isSome = true := by
  cases override with
  | none => simp [Registry.mem_names]
  | some registry =>
      simp only [Registry.mem_names, Option.map_some, Option.getD_some, Option.bind_some,
        Option.isSome_or, Bool.or_eq_true]
      exact Or.comm

/-- The helpers that a page can call are known by what the lookup finds. -/
theorem helperNames_eq {s t : Store} {f g : Frame}
    (h : ∀ name, s.helper? f name = t.helper? g name) : helperNames s f = helperNames t g := by
  unfold helperNames
  refine congrArg _ (unionNames_eq fun name => ?_)
  rw [mem_registryNames s.helpersOf, mem_registryNames t.helpersOf]
  exact iff_of_eq (congrArg (fun found => Option.isSome found = true) (h name))

theorem partialNames_eq {s t : Store} {f g : Frame}
    (h : ∀ name, s.entry? f name = t.entry? g name) : partialNames s f = partialNames t g := by
  unfold partialNames
  refine congrArg _ (unionNames_eq fun name => ?_)
  rw [mem_registryNames s.partialsOf, mem_registryNames t.partialsOf, ← s.entry?_eq,
    ← t.entry?_eq, h name]

end Page

namespace Overlay

/-- Open frames of the two sides: the same template, and lookups as in the
frames that the renders began with. -/
structure Frames (licence : Licence) (left right f g : Frame) : Prop where
  template : f.template = g.template
  keeps : f.template.Keeps licence
  sees : left.Sees f
  sees' : right.Sees g
  data : f.options.data = g.options.data
  depth : f.options.depth = g.options.depth

/-- Stores in which the two sides find the same. -/
structure Stores (licence : Licence) (left right : Frame) (s t : Store) : Prop
    extends s.Agrees t where
  helper : ∀ name, s.helper? left name = t.helper? right name
  entry : ∀ name, s.entry? left name = t.entry? right name
  keeps : s.Keeps licence
  bound : s.Bound left.environment

variable {licence : Licence} {left right f g : Frame} {s t : Store} {name : String}

namespace Frames

theorem environment (h : Frames licence left right f g) : f.environment = g.environment :=
  congrArg Template.environment h.template

/-- Frames for a partial that was found, one level deeper. -/
theorem nested (h : Frames licence left right f g) {template : Template}
    (hkeeps : template.Keeps licence) (hbound : template.environment = left.environment) :
    Frames licence left right ⟨template, f.options.nested⟩ ⟨template, g.options.nested⟩ where
  template := rfl
  keeps := hkeeps
  sees := ⟨hbound, h.sees.helpers, h.sees.partials⟩
  sees' := by
    refine ⟨?_, h.sees'.helpers, h.sees'.partials⟩
    exact hbound.trans (h.sees.environment.symm.trans (h.environment.trans h.sees'.environment))
  data := rfl
  depth := congrArg (· + 1) h.depth

end Frames

namespace Stores

theorem congr (h : Stores licence left right s t) {s' t' : Store} (hpen : s'.pen = t'.pen)
    (hleft : s' = { s with
      pen := s'.pen, trace := s'.trace, messages := s'.messages, evaluations := s'.evaluations,
      frames := s'.frames, visits := s'.visits, compilations := s'.compilations })
    (hright : t' = { t with
      pen := t'.pen, trace := t'.trace, messages := t'.messages, evaluations := t'.evaluations,
      frames := t'.frames, visits := t'.visits, compilations := t'.compilations }) :
    Stores licence left right s' t' := by
  have hagrees := h.toAgrees.congr hpen hleft hright
  rw [hleft, hright] at hagrees ⊢
  exact { h with toAgrees := hagrees, keeps := h.keeps.congr rfl rfl rfl }

theorem attempted (h : Stores licence left right s t) (first second : Compilation) :
    Stores licence left right (s.attempted first) (t.attempted second) :=
  { h with toAgrees := h.toAgrees.attempted first second, keeps := h.keeps.congr rfl rfl rfl }

theorem provided (h : Stores licence left right s t) {s' t' : Store} (hleft : s.Provided s')
    (hright : t.Provided t') (hagrees : s'.Agrees t') (hkeeps : s'.Keeps licence) :
    Stores licence left right s' t' := by
  obtain ⟨_, _, _, rfl⟩ := hleft
  obtain ⟨_, _, _, rfl⟩ := hright
  exact { h with toAgrees := hagrees, keeps := hkeeps }

/-- A template stands where its name was found, on either side. -/
theorem entry?_settled (store : Store) {frame : Frame} (template : Template)
    (hsees : left.Sees frame) (hfound : (store.entry? left name).isSome = true)
    (name' : String) :
    Store.entry?
        (store.registerPartial (store.partialHome frame name) name (.compiled template)) left name' =
      if name' = name then some (.compiled template) else store.entry? left name' := by
  have hcontains : (store.partialsOf (store.partialHome left name)).contains name = true := hfound
  rw [hsees.partialHome_eq]
  unfold Store.entry?
  rw [Store.partialHome_registerPartial hcontains, Store.get?_registerPartial]
  by_cases hname : name' = name
  · rw [hname, if_pos ⟨rfl, rfl⟩, if_pos rfl]
  · rw [if_neg fun h => hname h.2, if_neg hname]

/-- A source was accepted on both sides: one template stands in its place. -/
theorem settled (h : Stores licence left right s t) (hframe : Frames licence left right f g)
    {spec : Spec} (hfound : (s.entry? left name).isSome = true) {after : Store}
    (hmade : (s.newTemplate f.environment spec).2.settled {} (s.partialHome f name) name
      (s.newTemplate f.environment spec).1 = after)
    (hkeeps : after.Keeps licence) (hbound : after.Bound left.environment) :
    Stores licence left right after
      ((t.newTemplate g.environment spec).2.settled {} (t.partialHome g name) name
        (t.newTemplate g.environment spec).1) := by
  subst hmade
  have htemplates : (s.newTemplate f.environment spec).1 =
      (t.newTemplate g.environment spec).1 := by
    simp only [Store.newTemplate, h.freshTemplate, h.freshProgram, hframe.environment]
  have hfound' : (t.entry? right name).isSome = true := h.entry name ▸ hfound
  refine {
    helper := h.helper
    entry := ?_
    slots := h.slots
    freshTemplate := congrArg (· + 1) h.freshTemplate
    freshProgram := congrArg (· + 1) h.freshProgram
    attempts := h.attempts
    pen := h.pen
    keeps := hkeeps
    bound := hbound }
  intro name'
  have hleft := entry?_settled (s.newTemplate f.environment spec).2
    (s.newTemplate f.environment spec).1 hframe.sees hfound name'
  have hright := entry?_settled (t.newTemplate g.environment spec).2
    (t.newTemplate g.environment spec).1 hframe.sees' hfound' name'
  refine hleft.trans (Eq.trans ?_ hright.symm)
  rw [htemplates]
  split
  · rfl
  · exact h.entry name'

end Stores

/-- A render with registries of the caller, and one with all of them in the
environment. -/
def parallel (licence : Licence) (left right : Frame) : Parallel Unit where
  grows := Eq
  stores _ := Stores licence left right
  grows_refl _ := rfl
  grows_trans := Eq.trans
  frames _ := Frames licence left right
  opens _ := Frames licence left right
  identities _ := Eq
  licence _ := licence
  frames_grow _ h := h
  identities_grow _ h := h

theorem entry_eq (h : Stores licence left right s t) (hframe : Frames licence left right f g)
    (name : String) : s.entry? f name = t.entry? g name := by
  rw [hframe.sees.entry?_eq, hframe.sees'.entry?_eq, h.entry]

theorem helper_eq (h : Stores licence left right s t) (hframe : Frames licence left right f g)
    (name : String) : s.helper? f name = t.helper? g name := by
  rw [hframe.sees.helper?_eq, hframe.sees'.helper?_eq, h.helper]

/-- A source is given to the same compiler on both sides, and if it is accepted
the template is kept where each side found the source. -/
theorem source_ends (h : Stores licence left right s t) (hframe : Frames licence left right f g)
    {source : String} (hleft : s.entry? f name = some (.source source))
    (hright : t.entry? g name = some (.source source)) :
    (parallel licence left right).Ends ()
      (fun _ a b => Frames licence left right ⟨a, f.options.nested⟩ ⟨b, g.options.nested⟩)
      (f.partialTemplate {} name s) (g.partialTemplate {} name t) := by
  have henvironment := hframe.environment
  refine Frame.source_ends h h.attempted hleft hright
    (congrArg Environment.compiler henvironment.symm) (fun _ _ => by rw [h.attempts]) ?_
  intro compiler spec hcompiler hanswer
  have hfinds := f.finds_partialTemplate {} name s
  rw [Frame.partialTemplate_accepted hleft hcompiler hanswer] at hfinds
  obtain ⟨hkeeps, htemplate⟩ := h.keeps.finds hframe.keeps.offers hfinds
  obtain ⟨hbound, hin⟩ := h.bound.finds hframe.sees.environment hfinds
  have hfound : (s.entry? left name).isSome = true := by
    rw [← hframe.sees.entry?_eq, hleft]
    rfl
  have hsame : (s.newTemplate f.environment spec).1 = (t.newTemplate g.environment spec).1 := by
    simp only [Store.newTemplate, h.freshTemplate, h.freshProgram, henvironment]
  have hnested := hframe.nested (htemplate _ rfl) (hin _ rfl)
  refine .done rfl ?_ ((h.attempted _ _).settled hframe hfound rfl hkeeps hbound)
  show Frames licence left right ⟨(s.newTemplate f.environment spec).1, f.options.nested⟩
    ⟨(t.newTemplate g.environment spec).1, g.options.nested⟩
  rw [← hsame]
  exact hnested

theorem finds_alike (hframe : Frames licence left right f g) (name : String) :
    (parallel licence left right).Alike ()
      (fun _ a b => Frames licence left right ⟨a, f.options.nested⟩ ⟨b, g.options.nested⟩)
      (f.partialTemplate {} name) (g.partialTemplate {} name) := by
  intro s t h
  have hentries := entry_eq h hframe name
  cases hleft : s.entry? f name with
  | none =>
      rw [Frame.partialTemplate_missing hleft,
        Frame.partialTemplate_missing (hentries.symm.trans hleft)]
      exact .failed _ rfl h
  | some entry =>
      have hright : t.entry? g name = some entry := hentries.symm.trans hleft
      cases entry with
      | compiled template =>
          rw [Frame.partialTemplate_compiled hleft, Frame.partialTemplate_compiled hright]
          have hkeeps := h.keeps.partials _ name template hleft
          exact .done rfl (hframe.nested hkeeps (h.bound _ name template hleft)) h
      | source source => exact source_ends h hframe hleft hright

theorem provides_alike (hframe : Frames licence left right f g) {index : Nat}
    {body : List Node} {data : Option Value} (hallowed : licence.AllowsNodes body) :
    (parallel licence left right).Alike ()
      (fun _ => (parallel licence left right).Programs () f)
      (Render.requestProgram f.template index body data)
      (Render.requestProgram g.template index body data) := by
  intro s t h
  obtain ⟨program, s', t', hleft, hright, hagrees, hrequests, hrun, hrun'⟩ :=
    h.toAgrees.requests (congrArg Template.identity hframe.template) index body data
  obtain ⟨hbody, hkeeps⟩ := h.keeps.requests hallowed hrequests
  rw [hrun, hrun']
  exact .done rfl ⟨rfl, rfl, rfl, rfl, hbody⟩ (h.provided hleft hright hagrees hkeeps)

theorem makes_alike {body : List Node} {data : Option Value} {depths : List Value}
    (hallowed : licence.AllowsNodes body) :
    (parallel licence left right).Alike ()
      (fun _ => (parallel licence left right).Programs () f)
      (Render.newProgram body data depths) (Render.newProgram body data depths) := by
  intro s t h
  refine .done rfl ⟨h.freshProgram, rfl, rfl, rfl, hallowed⟩ ?_
  exact { h with
    freshProgram := congrArg (· + 1) h.freshProgram
    keeps := h.keeps.congr rfl rfl rfl }

/-- Both renders obey the laws, so all of it is alike. -/
theorem lawful (left right : Frame) : (parallel .lookups left right).Lawful {} {} where
  pen _ h := h.pen
  quiet _ h hquiet hpen := h.congr (hpen _ _ h.pen) (hquiet _).eq (hquiet _).eq
  logs h _ _ _ := h.congr h.pen rfl rfl
  frames_match h :=
    ⟨.inl (congrArg Environment.settings h.environment), h.data, h.depth⟩
  opens_match h :=
    ⟨.inl (congrArg Environment.settings h.environment), h.data, h.depth⟩
  opens_spec h := congrArg Template.spec h.template
  strict _ _ lenient := lenient
  allows_spec h := h.keeps.spec
  noop h := by
    rw [← h.template]
    exact ⟨rfl, rfl, rfl, rfl, h.keeps.noop⟩
  helper h hframe name := ⟨helper_eq h hframe name, fun _ hfound => h.keeps.helper hfound⟩
  helper_names h hframe := Page.helperNames_eq (helper_eq h hframe)
  partial_names h hframe := Page.partialNames_eq (entry_eq h hframe)
  outline _ _ hoptions := hoptions.elim
  provides hframe _ hallowed := provides_alike hframe hallowed
  makes _ hallowed := makes_alike hallowed
  compares := by
    rintro _ s t f g i j _ _ _ _ _ rfl rfl
    exact Iff.rfl
  counts h hframe _ := by
    unfold Store.slotsOf
    rw [h.slots, hframe.template]
  finds hframe name := finds_alike hframe name
  enter := by
    intro _ f g s t hopens h _
    refine ⟨(), hopens, h.congr h.pen rfl rfl, ?_⟩
    intro _ s' t' _ hlast
    exact ⟨(), rfl, hlast.congr hlast.pen rfl rfl⟩
  writes h := Parallel.writes_within h trivial h.pen fun _ hlast => hlast.congr rfl rfl rfl

/-- Registering all entries makes the lookups in the environment those of the
caller's frames. -/
theorem begins {store : Store} {template : Template} {options : RenderOptions}
    (hkeeps : store.Keeps licence) (hbound : store.Bound template.environment) :
    Stores licence ⟨template, options⟩
      ⟨template, { options with helpers := none, partials := none }⟩ store
      (store.overlaid template.environment options) := by
  obtain ⟨helpers, partials, hafter⟩ := store.overlaid_eq template.environment options
  refine {
    helper := fun name => (store.get?_overlaid_helpers template.environment options name).symm
    entry := ?_
    slots := by rw [hafter]
    freshTemplate := by rw [hafter]
    freshProgram := by rw [hafter]
    attempts := by rw [hafter]
    pen := by rw [hafter]
    keeps := hkeeps
    bound := hbound }
  intro name
  rw [store.entry?_eq]
  exact (store.get?_overlaid_partials template.environment options name).symm

end Overlay

/-- Registries of the caller are an overlay of the environment. A render of any
template with them ends as it would without them, if every helper and every
partial of theirs had been registered in the environment before, in place of
those with the same names. -/
theorem Template.overrides_overlay {store : Store} {template : Template}
    (hstore : store.Keeps .lookups) (htemplate : template.Keeps .lookups)
    (hbound : store.Bound template.environment) (levels : Nat) (context : Value)
    (options : RenderOptions) :
    (Task.run {} levels (.template template context options) store).1 =
      (Task.run {} levels
        (.template template context { options with helpers := none, partials := none })
        (store.overlaid template.environment options)).1 := by
  have laws := Overlay.lawful ⟨template, options⟩
    ⟨template, { options with helpers := none, partials := none }⟩
  have htask : (Overlay.parallel .lookups ⟨template, options⟩
      ⟨template, { options with helpers := none, partials := none }⟩).Tasks ()
      (.template template context options)
      (.template template context { options with helpers := none, partials := none }) :=
    .template ⟨rfl, htemplate, ⟨rfl, rfl, rfl⟩, ⟨rfl, rfl, rfl⟩, rfl, rfl⟩
  have hends := laws.run_alike levels () _ _ htask _ _ (Overlay.begins hstore hbound)
  exact hends.outcome_eq id

namespace TwoLayers

def environment : Environment := ⟨0, 0, {}, some .echo, .standard⟩

def template : Template :=
  ⟨0, environment, .nodes [.inclusion "outer" (.this none)], ⟨0, [], none, []⟩⟩

/-- A partial that refers to another one, to a helper and to an unknown one. -/
def outer : Template :=
  ⟨1, environment,
    .nodes [.inclusion "inner" (.this none),
      .call "mark" (.this none) (.mk false none none none false),
      .call "unknown" (.this none) (.mk false none none none false)],
    ⟨1, [], none, []⟩⟩

def shown : Helper := ⟨.nodes [.text "(", .escaped (.this none), .text ")"], none⟩

/-- The helpers of the environment under zero, and of the caller under one. -/
def helpers : Store :=
  ((Store.empty.registerHelper 0 "mark" ⟨.nodes [.text "own"], none⟩).registerHelper 1 "mark"
    ⟨.nodes [.text "caller's"], none⟩).registerHelper 1 "helperMissing" shown

def store : Store :=
  ((helpers.registerPartial 0 "outer" (.compiled outer)).registerPartial 0 "inner"
    (.source "own")).registerPartial 1 "inner" (.source "caller's")

def options : RenderOptions := { helpers := some 1, partials := some 1 }

theorem template_keeps : template.Keeps .lookups :=
  ⟨⟨trivial, trivial⟩, trivial, Compiler.echo_offers rfl⟩

theorem outer_keeps : outer.Keeps .lookups := by
  refine ⟨?_, trivial, Compiler.echo_offers rfl⟩
  simp [outer, Licence.AllowsSpec, Licence.AllowsNodes, Licence.AllowsNode, Licence.AllowsExpr,
    Licence.AllowsOptions, Licence.AllowsProgram?, Licence.AllowsExpr?]

theorem allows_texts (texts : List String) :
    Licence.lookups.AllowsHelper ⟨.nodes (texts.map .text), none⟩ := by
  refine ⟨Licence.allowsNodes_iff.mpr ?_, fun _ hnone => nomatch hnone⟩
  simp [Licence.AllowsNode]

theorem store_keeps : store.Keeps .lookups := by
  have hshown : Licence.lookups.AllowsHelper shown :=
    ⟨⟨trivial, trivial, trivial, trivial⟩, fun _ hnone => nomatch hnone⟩
  have houter : ∀ template, Partial.compiled outer = .compiled template →
      template.Keeps .lookups := by
    rintro _ ⟨⟩
    exact outer_keeps
  have hown := (Store.Keeps.empty .lookups).registerHelper (allows_texts ["own"]) 0 "mark"
  have hcaller := hown.registerHelper (allows_texts ["caller's"]) 1 "mark"
  have hhelpers := hcaller.registerHelper hshown 1 "helperMissing"
  have hpartials := (hhelpers.registerPartial houter 0 "outer").registerSource 0 "inner" "own"
  exact hpartials.registerSource 1 "inner" "caller's"

theorem store_bound : store.Bound environment := by
  have houter : ∀ template, Partial.compiled outer = .compiled template →
      template.environment = environment := by
    rintro _ ⟨⟩
    rfl
  have hhelpers : helpers.Bound environment := (Store.Bound.empty environment).congr rfl
  have hpartials := (hhelpers.registerPartial houter 0 "outer").registerSource 0 "inner" "own"
  exact hpartials.registerSource 1 "inner" "caller's"

end TwoLayers

/-- A partial of the caller is found from a partial of the environment, and so
are the caller's helpers, known and unknown. -/
theorem Template.overrides_overlay_nested :
    (Task.run {} 7 (.template TwoLayers.template (.string "x") TwoLayers.options)
      TwoLayers.store).1 = .done "caller's:xcaller's(unknown)" ∧
    (Task.run {} 7 (.template TwoLayers.template (.string "x") {})
      (TwoLayers.store.overlaid TwoLayers.environment TwoLayers.options)).1 =
        .done "caller's:xcaller's(unknown)" := by
  have hends : (Task.run {} 7 (.template TwoLayers.template (.string "x") TwoLayers.options)
      TwoLayers.store).1 = .done "caller's:xcaller's(unknown)" := by decide +kernel
  have hsame := Template.overrides_overlay TwoLayers.store_keeps TwoLayers.template_keeps
    TwoLayers.store_bound 7 (.string "x") TwoLayers.options
  exact ⟨hends, hsame.symm.trans hends⟩

end Stencil
