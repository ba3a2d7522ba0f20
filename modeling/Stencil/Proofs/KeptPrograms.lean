import Stencil.Proofs.Finding
import Stencil.Proofs.Likeness.Hosts
import Stencil.Proofs.Likeness.Runs
import Stencil.Proofs.Requesting

/-!
Programs that templates keep. A runtime that keeps them is held beside one that
makes every program anew. What is known of both is which template renders what;
a slot that is filled holds the program of its block without data, so that it
may stand in for the one that is made anew. Templates of both sides have the
same identities, for both make templates at the same time.
-/

namespace Stencil

namespace KeptPrograms

/-- What the templates of each identity render. -/
abbrev Known := Nat → Option Spec

variable {con : Conventions False} {known known' : Known} {s t : Store} {f g : Frame}

/-- Templates that differ in nothing but their empty programs. -/
structure Twins (con : Conventions False) (known : Known) (t u : Template) : Prop where
  identity : t.identity = u.identity
  environment : t.environment = u.environment
  spec : t.spec = u.spec
  known : known t.identity = some t.spec
  allowed : con.specs t.spec
  offers : con.Offers t.environment
  noop : t.noop = ⟨t.noop.identity, [], none, []⟩
  noop' : u.noop = ⟨u.noop.identity, [], none, []⟩

/-- Partials that are templates of both sides, or one source. -/
inductive Entries (con : Conventions False) (known : Known) : Partial → Partial → Prop
  | compiled {t u : Template} (twins : Twins con known t u) :
      Entries con known (.compiled t) (.compiled u)
  | source (text : String) : Entries con known (.source text) (.source text)

/-- The store of a runtime that keeps programs beside that of one that does
not. -/
structure Stores (con : Conventions False) (known : Known) (s t : Store) : Prop
    extends con.Registered (Entries con known) s t where
  pen : s.pen = t.pen
  freshTemplate : s.freshTemplate = t.freshTemplate
  attempts : s.attempts = t.attempts
  kept : ∀ identity index program, s.kept? identity index = some program →
    ∃ spec, known identity = some spec ∧ program.body = con.blocks spec index ∧
      program.data = none ∧ program.depths = []
  known : ∀ identity spec, known identity = some spec → identity < s.freshTemplate

def Grows (known known' : Known) : Prop :=
  ∀ identity spec, known identity = some spec → known' identity = some spec

theorem Twins.grow {t u : Template} (h : Twins con known t u) (hgrown : Grows known known') :
    Twins con known' t u :=
  { h with known := hgrown _ _ h.known }

theorem Entries.grow {a b : Partial} (h : Entries con known a b) (hgrown : Grows known known') :
    Entries con known' a b := by
  cases h with
  | compiled twins => exact .compiled (twins.grow hgrown)
  | source text => exact .source text

namespace Stores

/-- What does not touch templates, programs and registries is free. -/
theorem congr {s' t' : Store} (h : Stores con known s t) (hpen : s'.pen = t'.pen)
    (hleft : s' = { s with
      pen := s'.pen, trace := s'.trace, messages := s'.messages, evaluations := s'.evaluations,
      frames := s'.frames, visits := s'.visits, compilations := s'.compilations })
    (hright : t' = { t with
      pen := t'.pen, trace := t'.trace, messages := t'.messages, evaluations := t'.evaluations,
      frames := t'.frames, visits := t'.visits, compilations := t'.compilations }) :
    Stores con known s' t' := by
  rw [hleft, hright]
  exact { h with pen := hpen }

theorem newTemplate (h : Stores con known s t) {environment : Environment} {spec : Spec}
    (hspec : con.specs spec) (hoffers : con.Offers environment) :
    ∃ known', Grows known known' ∧
      Twins con known' (s.newTemplate environment spec).1 (t.newTemplate environment spec).1 ∧
      Stores con known' (s.newTemplate environment spec).2 (t.newTemplate environment spec).2 := by
  let known' : Known := fun identity =>
    if identity = s.freshTemplate then some spec else known identity
  have hgrown : Grows known known' := by
    intro identity other hknown
    have hold := h.known identity other hknown
    show (if identity = s.freshTemplate then some spec else known identity) = some other
    rw [if_neg (by omega)]
    exact hknown
  refine ⟨known', hgrown, ?_, ?_⟩
  · exact ⟨h.freshTemplate, rfl, rfl, if_pos rfl, hspec, hoffers, rfl, rfl⟩
  · have hregistered := h.toRegistered.weaken fun _ _ hentry => hentry.grow hgrown
    refine { hregistered with
      pen := h.pen
      attempts := h.attempts
      freshTemplate := congrArg (· + 1) h.freshTemplate
      kept := ?_
      known := ?_ }
    · intro identity index program hkept
      obtain ⟨other, hother, hprogram⟩ := h.kept identity index program hkept
      exact ⟨other, hgrown _ _ hother, hprogram⟩
    · intro identity other hknown
      show identity < s.freshTemplate + 1
      by_cases hnew : identity = s.freshTemplate
      · omega
      · have hold : known identity = some other := by
          rw [← hknown]
          exact (if_neg hnew).symm
        have := h.known identity other hold
        omega

theorem attempted (h : Stores con known s t) (first second : Compilation) :
    Stores con known (s.attempted first) (t.attempted second) :=
  { h with attempts := congrArg (· + 1) h.attempts }

/-- A program is provided on the left, whatever is made on the right. -/
theorem provided (h : Stores con known s t) {after : Store} (hprovided : s.Provided after)
    (hkept : ∀ identity index program, after.kept? identity index = some program →
      ∃ spec, known identity = some spec ∧ program.body = con.blocks spec index ∧
        program.data = none ∧ program.depths = []) (fresh : Nat) :
    Stores con known after { t with freshProgram := fresh } := by
  obtain ⟨_, _, _, rfl⟩ := hprovided
  exact { h with kept := hkept }

end Stores

/-- The two runtimes side by side. Programs may not be compared, so nothing is
known of their identities. -/
def parallel (con : Conventions False) : Parallel Known where
  grows := Grows
  stores := Stores con
  grows_refl _ _ _ h := h
  grows_trans h h' identity spec hknown := h' identity spec (h identity spec hknown)
  frames known f g := Twins con known f.template g.template ∧ f.options = g.options
  opens known f g := Twins con known f.template g.template ∧ f.options = g.options
  identities _ _ _ := True
  licence f := con.licence f.template.spec
  frames_grow hgrown h := ⟨h.1.grow hgrown, h.2⟩
  identities_grow _ h := h

theorem twins_match (h : Twins con known f.template g.template) (hoptions : f.options = g.options) :
    f.Matches False g := by
  refine ⟨.inl ?_, ?_, ?_⟩
  · unfold Frame.settings Frame.environment
    rw [h.environment]
  · rw [hoptions]
  · rw [hoptions]

/-- A source is compiled on both sides, and kept on both sides if it is
accepted. -/
theorem source_ends (h : Stores con known s t) (hframe : (parallel con).frames known f g)
    {name source : String} (hleft : s.entry? f name = some (.source source))
    (hright : t.entry? g name = some (.source source)) :
    (parallel con).Ends known
      (fun known' t u => (parallel con).opens known' ⟨t, f.options.nested⟩ ⟨u, g.options.nested⟩)
      (f.partialTemplate {} name s) (g.partialTemplate { programs := false } name t) := by
  obtain ⟨htwins, hoptions⟩ := hframe
  have henvironment : f.environment = g.environment := htwins.environment
  have hhome := h.partialHome_eq henvironment hoptions name
  refine Frame.source_ends h h.attempted hleft hright
    (congrArg Environment.compiler henvironment.symm) (fun _ _ => by rw [h.attempts]) ?_
  intro compiler spec hcompiler hanswer
  unfold Frame.accepted
  rw [← hhome, ← henvironment]
  have hspec := htwins.offers compiler s.attempts source spec hcompiler hanswer
  obtain ⟨known', hgrown, hnew, hstores⟩ := (h.attempted _ _).newTemplate hspec htwins.offers
  exact .done hgrown ⟨hnew, congrArg RenderOptions.nested hoptions⟩
    { hstores with toRegistered := hstores.toRegistered.register _ name (.compiled hnew) }

/-- A reference to a partial finds templates that stand for each other. -/
theorem finds_alike (hframe : (parallel con).frames known f g) (name : String) :
    (parallel con).Alike known
      (fun known' t u => (parallel con).opens known' ⟨t, f.options.nested⟩ ⟨u, g.options.nested⟩)
      (f.partialTemplate {} name) (g.partialTemplate { programs := false } name) := by
  intro s t h
  have hentries := h.entry hframe.1.environment hframe.2 name
  generalize hleft : s.entry? f name = a at hentries
  generalize hright : t.entry? g name = b at hentries
  cases hentries with
  | none =>
      rw [Frame.partialTemplate_missing hleft, Frame.partialTemplate_missing hright]
      exact .failed _ (fun _ _ h => h) h
  | some hentry =>
      cases hentry with
      | compiled twins =>
          rw [Frame.partialTemplate_compiled hleft, Frame.partialTemplate_compiled hright]
          exact .done (fun _ _ h => h) ⟨twins, congrArg RenderOptions.nested hframe.2⟩ h
      | source text => exact source_ends h hframe hleft hright

/-- The program of a block. What a slot holds is what is made anew on the
other side, for a number stands for one block and a slot has no data. -/
theorem provides_alike (hframe : (parallel con).frames known f g) {index : Nat}
    {body : List Node} {data : Option Value}
    (hrequests : (con.licence f.template.spec).requests index body)
    (hallowed : (con.licence f.template.spec).AllowsNodes body) :
    (parallel con).Alike known (fun known' => (parallel con).Programs known' f)
      (Render.requestProgram f.template index body data)
      (Render.newProgram body (data.filter Value.isTruthy) []) := by
  intro s t h
  have hmade : Render.newProgram body (data.filter Value.isTruthy) [] t =
      (.done ⟨t.freshProgram, body, data.filter Value.isTruthy, []⟩,
        { t with freshProgram := t.freshProgram + 1 }) := rfl
  obtain ⟨program, after, hrun, hrequested⟩ := f.template.requests_program index body data s
  rw [hrun, hmade]
  have hbody : body = con.blocks f.template.spec index := hrequests
  have hgrown : Grows known known := fun _ _ h => h
  cases hrequested with
  | own given provided kept fresh =>
      refine .done hgrown ⟨trivial, rfl, given.symm, rfl, hallowed⟩ (h.provided provided ?_ _)
      intro identity i program hkept
      exact h.kept identity i program (kept identity i ▸ hkept)
  | filled without found provided kept fresh =>
      obtain ⟨spec, hspec, hprogram, hdata, hdepths⟩ := h.kept _ _ _ found
      obtain rfl := Option.some.inj (hspec.symm.trans hframe.1.known)
      have hsame : program.body = body := hprogram.trans hbody.symm
      refine .done hgrown ⟨trivial, hsame, hdata.trans without.symm, hdepths, hsame ▸ hallowed⟩
        (h.provided provided ?_ _)
      intro identity i other hkept
      exact h.kept identity i other (kept identity i ▸ hkept)
  | fills without found provided kept fresh =>
      refine .done hgrown ⟨trivial, rfl, without.symm, rfl, hallowed⟩ (h.provided provided ?_ _)
      intro identity i other hkept
      rw [kept identity i] at hkept
      by_cases hslot : identity = f.template.identity ∧ i = index
      · rw [if_pos hslot] at hkept
        obtain rfl := Option.some.inj hkept
        exact ⟨f.template.spec, hslot.1 ▸ hframe.1.known, hslot.2 ▸ hbody, rfl, rfl⟩
      · rw [if_neg hslot] at hkept
        exact h.kept identity i other hkept

theorem makes_alike {body : List Node} {data : Option Value} {depths : List Value}
    (hallowed : (con.licence f.template.spec).AllowsNodes body) :
    (parallel con).Alike known (fun known' => (parallel con).Programs known' f)
      (Render.newProgram body data depths) (Render.newProgram body data depths) := by
  intro s t h
  refine .done (fun _ _ h => h) ⟨trivial, rfl, rfl, rfl, hallowed⟩ ?_
  have hprovided : s.Provided { s with freshProgram := s.freshProgram + 1 } := ⟨_, _, _, rfl⟩
  exact h.provided hprovided h.kept _

/-- Both runtimes obey the laws, so all that they render is alike. -/
theorem lawful (con : Conventions False) : (parallel con).Lawful {} { programs := false } where
  pen _ h := h.pen
  quiet _ h hquiet hpen := h.congr (hpen _ _ h.pen) (hquiet _).eq (hquiet _).eq
  logs h _ _ _ := h.congr h.pen rfl rfl
  frames_match h := twins_match h.1 h.2
  opens_match h := twins_match h.1 h.2
  opens_spec h := h.1.spec
  strict _ _ lenient := lenient
  allows_spec h := con.allows_spec _ h.1.allowed
  noop := by
    rintro known f g ⟨htwins, _⟩
    refine ⟨trivial, ?_, ?_, ?_, ?_⟩
    · rw [htwins.noop, htwins.noop']
    · rw [htwins.noop, htwins.noop']
    · rw [htwins.noop, htwins.noop']
    · rw [htwins.noop]
      trivial
  helper := by
    intro known s t f g h hframe name
    refine ⟨h.mirrors.helper?_eq hframe.1.environment hframe.2 name, ?_⟩
    intro helper hfound
    exact con.allows_helper _ _ hframe.1.allowed (h.helper_allowed hfound)
  helper_names h hframe := h.mirrors.helperNames_eq hframe.1.environment hframe.2
  partial_names h hframe := h.mirrors.partialNames_eq hframe.1.environment hframe.2
  outline := by
    intro known s t f g h hframe _
    rw [hframe.2]
    exact h.mirrors.outline_eq g.options
  provides hframe hrequests hallowed := provides_alike hframe hrequests hallowed
  makes _ hallowed := makes_alike hallowed
  compares _ _ hcompares := hcompares.elim
  counts _ _ hcounts := hcounts.elim
  finds hframe name := finds_alike hframe name
  enter := by
    intro known f g s t hopens h _
    refine ⟨known, hopens, h.congr h.pen rfl rfl, ?_⟩
    intro last s' t' hgrown hlast
    exact ⟨last, hgrown, hlast.congr hlast.pen rfl rfl⟩
  writes h := Parallel.writes_within h trivial h.pen fun _ hlast => hlast.congr rfl rfl rfl

theorem Stores.empty (con : Conventions False) : Stores con (fun _ => none) .empty .empty :=
  { Conventions.Registered.empty con _ with
    pen := rfl
    freshTemplate := rfl
    attempts := rfl
    kept := by
      intro identity index program hkept
      cases hkept
    known := by
      intro identity spec hknown
      cases hknown }

/-- Hosts of the two runtimes are alike as long as they keep to the
conventions. -/
theorem serves (con : Conventions False) :
    (parallel con).Serves {} { programs := false } con.Follows (Twins con) where
  lawful := lawful con
  strict := id
  templates_grow hgrown h := h.grow hgrown
  opens h _ := ⟨h, rfl⟩
  openHelpers h hfollows := { h with toRegistered := h.toRegistered.openHelpers hfollows }
  openPartials h := { h with toRegistered := h.toRegistered.openPartials }
  make h hfollows := h.newTemplate hfollows.make.1 hfollows.make.2
  registerHelper h hfollows := { h with toRegistered := h.toRegistered.registerHelper hfollows }
  registerSource h registry name source :=
    { h with toRegistered := h.toRegistered.register registry name (.source source) }
  registerTemplate h htwins registry name :=
    { h with toRegistered := h.toRegistered.register registry name (.compiled htwins) }

theorem hosts_empty (con : Conventions False) :
    (parallel con).Hosts (Twins con) (fun _ => none) .empty .empty where
  stores := .empty con
  length := rfl
  templates _ := .none

/-- The hosts are alike no matter how many of the kept programs are left. -/
theorem hosts_forget {a b : Host} (h : (parallel con).Hosts (Twins con) known a b)
    {slots : Table Slots} (hslots : ∀ identity index program,
      ({ a.store with slots }).kept? identity index = some program →
        a.store.kept? identity index = some program) :
    (parallel con).Hosts (Twins con) known { a with store := { a.store with slots } } b where
  stores :=
    { h.stores with
      kept := fun identity index program hkept =>
        h.stores.kept identity index program (hslots identity index program hkept) }
  length := h.length
  templates := h.templates

end KeptPrograms

/-- Whether templates keep the programs of their blocks makes no difference to
what a host gets. Whatever it does, each of its renders ends as it would if
every program were made anew; and if only some of the kept programs were left,
or none, whatever it does after that ends as it would with all of them. -/
theorem Host.keeps_programs_unseen (blocks : Spec → Nat → List Node)
    (operations later : List Operation)
    (huniform : Operation.Uniform False blocks (operations ++ later)) (levels : Nat) :
    (Host.empty.run {} levels operations).1 =
      (Host.empty.run { programs := false } levels operations).1 ∧
    ∀ slots : Table Slots,
      let host := (Host.empty.run {} levels operations).2
      let less : Store := { host.store with slots }
      (∀ identity index program, less.kept? identity index = some program →
        host.store.kept? identity index = some program) →
      ({ host with store := less }.run {} levels later).1 = (host.run {} levels later).1 := by
  let con := Conventions.of huniform
  have hearlier : ∀ operation ∈ operations, con.Follows operation := fun operation member =>
    Conventions.of_follows huniform (List.mem_append_left later member)
  have hlater : ∀ operation ∈ later, con.Follows operation := fun operation member =>
    Conventions.of_follows huniform (List.mem_append_right operations member)
  have hserves := KeptPrograms.serves con
  obtain ⟨houtcomes, known, hhosts⟩ :=
    hserves.run (KeptPrograms.hosts_empty con) hearlier levels
  refine ⟨houtcomes, ?_⟩
  intro slots host less hless
  have hless' := KeptPrograms.hosts_forget hhosts hless
  have hall := (hserves.run hhosts hlater levels).1
  have hsome := (hserves.run hless' hlater levels).1
  exact hsome.trans hall.symm

namespace TwoRenders

def environment : Environment := ⟨0, 0, {}, none, .standard⟩

def block : List Node := [.escaped (.this none)]

/-- A template that asks twice for one block, once with data. -/
def spec : Spec :=
  .nodes [.run (.cached 0 block none) (.this none) none, .text "-",
    .run (.cached 0 block (some (.data none))) (.this none) none]

def operations : List Operation :=
  [.openHelpers .empty, .openPartials, .make environment spec,
    .render 0 (.string "a") none none none]

def later : List Operation := [.render 0 (.string "b") none none (some (.bool true))]

theorem uniform : Operation.Uniform False (fun _ _ => block) (operations ++ later) := by
  intro other hother
  constructor
  · obtain rfl : other = spec := by
      simpa [operations, later, environment, Operation.Brings] using hother
    simp [spec, block, Licence.AllowsSpec, Licence.AllowsNodes, Licence.AllowsNode,
      Licence.AllowsProgram, Licence.AllowsExpr, Licence.AllowsExpr?, Licence.uniform]
  · intro helper hhelper
    simp [operations, later, Operation.BringsHelper, Registry.empty, Registry.get?,
      field?] at hhelper

end TwoRenders

/-- Of two renders the second finds what the first one kept, and could do
without. -/
theorem Host.keeps_programs_unseen_twice :
    let host := (Host.empty.run {} 3 TwoRenders.operations).2
    (Host.empty.run { programs := false } 3 TwoRenders.operations).1 = [.done "a-a"] ∧
    (host.store.kept? 0 0).isSome = true ∧
    ({ host with store := { host.store with slots := .empty } }.run {} 3 TwoRenders.later).1 =
      [.done "b-b"] := by
  intro host
  obtain ⟨hfirst, hforget⟩ := Host.keeps_programs_unseen (fun _ _ => TwoRenders.block)
    TwoRenders.operations TwoRenders.later TwoRenders.uniform 3
  have hsecond := hforget .empty (by
    intro identity index program hkept
    cases hkept)
  refine ⟨?_, rfl, ?_⟩
  · rw [← hfirst]
    rfl
  · rw [hsecond]
    rfl

end Stencil
