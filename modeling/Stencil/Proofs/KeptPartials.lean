import Stencil.Proofs.Finding
import Stencil.Proofs.Likeness.Runs
import Stencil.Proofs.Pairing

/-!
Partials that registries keep. A runtime that puts templates in place of the
sources they were compiled from is held beside one that compiles a source each
time it is referred to. On the left one template serves where on the right many
come and go, and the programs that it keeps outlive theirs. So the worlds say
which templates each side has, and for each pair of open frames which programs
of the left stand for which of the right.
-/

namespace Stencil

namespace KeptPartials

/-- What is known of two runtimes: their templates, and the frames that are
open, the innermost first. -/
structure World where
  left : Nat → Option Template
  right : Nat → Option Template
  layers : List Layer

variable {con : Conventions True} {environment : Environment} {w w' : World} {s t : Store}
  {f g : Frame}

/-- Templates of both sides that render the same. -/
structure Twins (con : Conventions True) (environment : Environment) (w : World)
    (t u : Template) : Prop where
  left : w.left t.identity = some t
  right : w.right u.identity = some u
  spec : t.spec = u.spec
  proper : Proper con environment t
  proper' : Proper con environment u

/-- Partials that are templates of both sides or one source, or a source on the
right and on the left the template that the compiler makes of it. -/
inductive Entries (con : Conventions True) (environment : Environment) (w : World) :
    Partial → Partial → Prop
  | compiled {t u : Template} (twins : Twins con environment w t u) :
      Entries con environment w (.compiled t) (.compiled u)
  | source (text : String) : Entries con environment w (.source text) (.source text)
  | kept {t : Template} {text : String} {compiler : Compiler}
      (known : w.left t.identity = some t) (proper : Proper con environment t)
      (given : environment.compiler = some compiler)
      (steady : ∀ attempts, compiler.answer attempts text = .ok t.spec) :
      Entries con environment w (.compiled t) (.source text)

/-- The store of a runtime that keeps compiled partials beside that of one that
does not. -/
structure Stores (con : Conventions True) (environment : Environment) (w : World)
    (s t : Store) : Prop extends con.Registered (Entries con environment w) s t where
  pen : s.pen = t.pen
  left : Side con environment w.left s
  right : Side con environment w.right t
  layers : ∀ layer ∈ w.layers, layer.Holds s t

/-- Templates that are known stay known. -/
structure Knows (w w' : World) : Prop where
  left : ∀ identity template, w.left identity = some template →
    w'.left identity = some template
  right : ∀ identity template, w.right identity = some template →
    w'.right identity = some template

structure Grows (w w' : World) : Prop extends Knows w w' where
  layers : LayersGrow w.layers w'.layers

theorem Grows.refl (w : World) : Grows w w :=
  ⟨⟨fun _ _ h => h, fun _ _ h => h⟩, .refl _⟩

theorem Grows.trans {w₁ w₂ w₃ : World} (h : Grows w₁ w₂) (h' : Grows w₂ w₃) : Grows w₁ w₃ where
  left identity template hknown := h'.left _ _ (h.left identity template hknown)
  right identity template hknown := h'.right _ _ (h.right identity template hknown)
  layers := h.layers.trans h'.layers

theorem Twins.grow {a b : Template} (h : Twins con environment w a b) (hknows : Knows w w') :
    Twins con environment w' a b :=
  { h with
    left := hknows.left _ _ h.left
    right := hknows.right _ _ h.right }

theorem Entries.grow {a b : Partial} (h : Entries con environment w a b) (hknows : Knows w w') :
    Entries con environment w' a b := by
  cases h with
  | compiled twins => exact .compiled (twins.grow hknows)
  | source text => exact .source text
  | kept known proper given steady =>
      exact .kept (hknows.left _ _ known) proper given steady

/-- Two frames that are open, the innermost of all. -/
structure Open (con : Conventions True) (environment : Environment) (w : World) (f g : Frame) :
    Prop where
  twins : Twins con environment w f.template g.template
  options : f.options = g.options
  top : ∃ layer rest, w.layers = layer :: rest ∧ layer.left = f.template ∧
    layer.right = g.template ∧ layer.pairs f.template.noop.identity g.template.noop.identity

/-- Two identities of programs that stand for each other in the innermost
frames. -/
def Paired (w : World) (i j : Nat) : Prop :=
  ∃ layer rest, w.layers = layer :: rest ∧ layer.pairs i j

theorem Paired.grow {i j : Nat} (h : Paired w i j) (hgrown : Grows w w') : Paired w' i j := by
  obtain ⟨layer, rest, hlayers, hpair⟩ := h
  have hlayers' := hgrown.layers
  rw [hlayers] at hlayers'
  generalize hlast : w'.layers = layers at hlayers'
  cases hlayers' with
  | @cons _ layer' _ left right pairs => exact ⟨layer', rest, hlast, pairs i j hpair⟩

theorem Open.grow (h : Open con environment w f g) (hgrown : Grows w w') :
    Open con environment w' f g := by
  obtain ⟨layer, rest, hlayers, hleft, hright, hpair⟩ := h.top
  have hlayers' := hgrown.layers
  rw [hlayers] at hlayers'
  generalize hlast : w'.layers = layers at hlayers'
  cases hlayers' with
  | @cons _ layer' _ left right pairs =>
      exact ⟨h.twins.grow hgrown.toKnows, h.options, layer', rest, hlast, left.trans hleft,
        right.trans hright, pairs _ _ hpair⟩

namespace Stores

/-- What does not touch templates and programs is free, as long as the
registries are alike. -/
theorem congr {s' t' : Store} (h : Stores con environment w s t)
    (hregistered : con.Registered (Entries con environment w) s' t') (hpen : s'.pen = t'.pen)
    (hleft : s' = { s' with
      slots := s.slots, freshTemplate := s.freshTemplate, freshProgram := s.freshProgram })
    (hright : t' = { t' with
      slots := t.slots, freshTemplate := t.freshTemplate, freshProgram := t.freshProgram }) :
    Stores con environment w s' t' := by
  rw [hleft, hright]
  exact { hregistered with
    pen := hpen
    left := h.left.congr (fun _ _ => rfl) rfl rfl
    right := h.right.congr (fun _ _ => rfl) rfl rfl
    layers := fun layer member => (h.layers layer member).retain
      (.of_kept (fun _ _ => rfl) (Nat.le_refl _)) (.of_kept (fun _ _ => rfl) (Nat.le_refl _)) }

theorem makeLeft (h : Stores con environment w s t) {spec : Spec} (hspec : con.specs spec)
    (hoffers : con.Offers environment) :
    let w' : World := { w with left := know w.left (s.newTemplate environment spec).1 }
    Grows w w' ∧ Stores con environment w' (s.newTemplate environment spec).2 t := by
  intro w'
  have hgrown : Grows w w' :=
    ⟨⟨fun identity other => h.left.know_grows rfl identity other, fun _ _ h => h⟩, .refl _⟩
  have hregistered := h.toRegistered.weaken fun _ _ hentry => hentry.grow hgrown.toKnows
  refine ⟨hgrown, { hregistered with
    pen := h.pen
    left := h.left.newTemplate hspec hoffers
    right := h.right
    layers := ?_ }⟩
  intro layer member
  exact (h.layers layer member).retain (.of_kept (fun _ _ => rfl) (Nat.le_succ _))
    (.of_kept (fun _ _ => rfl) (Nat.le_refl _))

theorem makeRight (h : Stores con environment w s t) {spec : Spec} (hspec : con.specs spec)
    (hoffers : con.Offers environment) :
    let w' : World := { w with right := know w.right (t.newTemplate environment spec).1 }
    Grows w w' ∧ Stores con environment w' s (t.newTemplate environment spec).2 := by
  intro w'
  have hgrown : Grows w w' :=
    ⟨⟨fun _ _ h => h, fun identity other => h.right.know_grows rfl identity other⟩, .refl _⟩
  have hregistered := h.toRegistered.weaken fun _ _ hentry => hentry.grow hgrown.toKnows
  refine ⟨hgrown, { hregistered with
    pen := h.pen
    left := h.left
    right := h.right.newTemplate hspec hoffers
    layers := ?_ }⟩
  intro layer member
  exact (h.layers layer member).retain (.of_kept (fun _ _ => rfl) (Nat.le_refl _))
    (.of_kept (fun _ _ => rfl) (Nat.le_succ _))

theorem make (h : Stores con environment w s t) {spec : Spec} (hspec : con.specs spec)
    (hoffers : con.Offers environment) :
    ∃ w', Grows w w' ∧
      Twins con environment w' (s.newTemplate environment spec).1
        (t.newTemplate environment spec).1 ∧
      Stores con environment w' (s.newTemplate environment spec).2
        (t.newTemplate environment spec).2 := by
  obtain ⟨hleft, hmade⟩ := h.makeLeft hspec hoffers
  obtain ⟨hright, hmade'⟩ := hmade.makeRight hspec hoffers
  refine ⟨_, hleft.trans hright, ?_, hmade'⟩
  exact ⟨if_pos rfl, if_pos rfl, rfl, ⟨rfl, hspec, hoffers, rfl⟩, ⟨rfl, hspec, hoffers, rfl⟩⟩

/-- Programs were provided on both sides for the same number of the innermost
frames, and stand for each other from now on. -/
theorem pair {layer : Layer} {rest : List Layer} {s' t' : Store} {i j index : Nat} {keeps : Prop}
    (h : Stores con environment w s t) (hlayers : w.layers = layer :: rest)
    (hleft : Side con environment w.left s') (hright : Side con environment w.right t')
    (hmakes : s.Makes s' layer.left.identity index keeps i)
    (hmakes' : t.Makes t' layer.right.identity index keeps j) (hprovided : s.Provided s')
    (hprovided' : t.Provided t') :
    ∃ w', Grows w w' ∧ Paired w' i j ∧ Stores con environment w' s' t' := by
  obtain ⟨_, _, _, rfl⟩ := hprovided
  obtain ⟨_, _, _, rfl⟩ := hprovided'
  let w' : World := { w with layers := layer.pair i j :: rest }
  have hgrown : Grows w w' := by
    refine ⟨⟨fun _ _ h => h, fun _ _ h => h⟩, ?_⟩
    rw [hlayers]
    exact .cons rfl rfl fun _ _ hpair => .inl hpair
  have hregistered := h.toRegistered.weaken fun _ _ hentry => hentry.grow hgrown.toKnows
  refine ⟨w', hgrown, ⟨_, rest, rfl, .inr ⟨rfl, rfl⟩⟩, { hregistered with
    pen := h.pen
    left := hleft
    right := hright
    layers := ?_ }⟩
  intro other member
  have hold := h.layers
  rw [hlayers] at hold
  rcases List.mem_cons.mp member with rfl | hrest
  · exact (hold layer List.mem_cons_self).pair hmakes hmakes'
  · exact (hold other (List.mem_cons_of_mem _ hrest)).retain hmakes.toRetains hmakes'.toRetains

end Stores

def parallel (con : Conventions True) (environment : Environment) : Parallel World where
  grows := Grows
  stores := Stores con environment
  grows_refl := .refl
  grows_trans := .trans
  frames := Open con environment
  opens w f g := Twins con environment w f.template g.template ∧ f.options = g.options
  identities := Paired
  licence f := con.licence f.template.spec
  frames_grow hgrown h := h.grow hgrown
  identities_grow hgrown h := h.grow hgrown

theorem twins_match (h : Twins con environment w f.template g.template)
    (hoptions : f.options = g.options) : f.Matches False g := by
  refine ⟨.inl ?_, ?_, ?_⟩
  · unfold Frame.settings Frame.environment
    rw [h.proper.bound, h.proper'.bound]
  · rw [hoptions]
  · rw [hoptions]

theorem Open.environment_eq (h : Open con environment w f g) : f.environment = g.environment :=
  h.twins.proper.bound.trans h.twins.proper'.bound.symm

/-- The templates that two references to a partial find. -/
abbrev Found (con : Conventions True) (environment : Environment) (f g : Frame) (w : World)
    (t u : Template) : Prop :=
  (parallel con environment).opens w ⟨t, f.options.nested⟩ ⟨u, g.options.nested⟩

/-- A source is compiled on both sides. If it is accepted, its template is kept
on the left. -/
theorem source_ends (hsteady : environment.Steady) (h : Stores con environment w s t)
    (hopen : Open con environment w f g) {name text : String}
    (hleft : s.entry? f name = some (.source text))
    (hright : t.entry? g name = some (.source text)) :
    (parallel con environment).Ends w (Found con environment f g)
      (f.partialTemplate {} name s) (g.partialTemplate { partials := false } name t) := by
  have hbound : f.environment = environment := hopen.twins.proper.bound
  have hbound' : g.environment = environment := hopen.twins.proper'.bound
  have hoffers := hopen.twins.proper.offers
  have hattempted : ∀ first second,
      Stores con environment w (s.attempted first) (t.attempted second) :=
    fun _ _ => h.congr { h with } h.pen rfl rfl
  refine Frame.source_ends h hattempted hleft hright (by rw [hbound, hbound'])
    (fun compiler hcompiler => hsteady compiler (hbound ▸ hcompiler) _ _ text) ?_
  intro compiler spec hgiven hanswer
  have hcompiler : environment.compiler = some compiler := hbound ▸ hgiven
  unfold Frame.accepted
  rw [hbound, hbound']
  have hspec := hoffers compiler s.attempts text spec hcompiler hanswer
  obtain ⟨w', hgrown, hnew, hmade⟩ := (hattempted _ _).make hspec hoffers
  refine .done hgrown ⟨hnew, congrArg RenderOptions.nested hopen.options⟩ ?_
  -- The left keeps what it made, where the right goes on finding the source.
  have hhome := h.partialHome_eq hopen.environment_eq hopen.options name
  have hkept : Entries con environment w' (.compiled _) (.source text) :=
    .kept hnew.left hnew.proper hcompiler fun attempts =>
      (hsteady compiler hcompiler attempts s.attempts text).trans hanswer
  have hfound : (t.partialsOf (s.partialHome f name)).get? name = some (.source text) := by
    rw [hhome]
    exact hright
  exact hmade.congr (hmade.toRegistered.replace hfound hkept) hmade.pen rfl rfl

/-- A template that was kept on the left, of a source that is compiled on the
right once more. -/
theorem kept_ends (h : Stores con environment w s t) (hopen : Open con environment w f g)
    {name text : String} {template : Template} {compiler : Compiler}
    (hleft : s.entry? f name = some (.compiled template))
    (hright : t.entry? g name = some (.source text))
    (hknown : w.left template.identity = some template)
    (hproper : Proper con environment template) (hcompiler : environment.compiler = some compiler)
    (hanswer : ∀ attempts, compiler.answer attempts text = .ok template.spec) :
    (parallel con environment).Ends w (Found con environment f g)
      (f.partialTemplate {} name s) (g.partialTemplate { partials := false } name t) := by
  have hbound' : g.environment = environment := hopen.twins.proper'.bound
  rw [Frame.partialTemplate_compiled hleft,
    Frame.partialTemplate_accepted hright (hbound' ▸ hcompiler) (hanswer t.attempts), hbound']
  have htried : Stores con environment w s
      (t.attempted ⟨t.partialHome g name, name, true⟩) := h.congr { h with } h.pen rfl rfl
  obtain ⟨hgrown, hmade⟩ := htried.makeRight hproper.allowed hproper.offers
  refine .done hgrown ⟨?_, congrArg RenderOptions.nested hopen.options⟩ hmade
  exact ⟨hknown, if_pos rfl, rfl, hproper, ⟨rfl, hproper.allowed, hproper.offers, rfl⟩⟩

/-- A reference to a partial finds templates that render the same. -/
theorem finds_alike (hsteady : environment.Steady) (hopen : Open con environment w f g)
    (name : String) :
    (parallel con environment).Alike w (Found con environment f g)
      (f.partialTemplate {} name) (g.partialTemplate { partials := false } name) := by
  intro s t h
  have hentry := h.entry hopen.environment_eq hopen.options name
  generalize hleft : s.entry? f name = a at hentry
  generalize hright : t.entry? g name = b at hentry
  cases hentry with
  | none =>
      rw [Frame.partialTemplate_missing hleft, Frame.partialTemplate_missing hright]
      exact .failed _ (.refl w) h
  | some hentries =>
      cases hentries with
      | compiled twins =>
          rw [Frame.partialTemplate_compiled hleft, Frame.partialTemplate_compiled hright]
          exact .done (.refl w) ⟨twins, congrArg RenderOptions.nested hopen.options⟩ h
      | source text => exact source_ends hsteady h hopen hleft hright
      | kept known proper given steady =>
          exact kept_ends h hopen hleft hright known proper given steady

/-- The program of a block, from what the templates of the innermost frames
keep. -/
theorem provides_alike (hopen : Open con environment w f g) {index : Nat} {body : List Node}
    {data : Option Value} (hrequests : (con.licence f.template.spec).requests index body)
    (hallowed : (con.licence f.template.spec).AllowsNodes body) :
    (parallel con environment).Alike w (fun w' => (parallel con environment).Programs w' f)
      (Render.requestProgram f.template index body data)
      (Render.requestProgram g.template index body data) := by
  intro s t h
  obtain ⟨layer, rest, hlayers, hleft, hright, _⟩ := hopen.top
  have hbody : body = con.blocks f.template.spec index := hrequests
  obtain ⟨p, s', hrun, hrequested⟩ := f.template.requests_program index body data s
  obtain ⟨q, t', hrun', hrequested'⟩ := g.template.requests_program index body data t
  rw [hrun, hrun']
  have hprovided := hrequested.provided
  have hprovided' := hrequested'.provided
  rw [hbody] at hrequested hrequested'
  rw [hopen.twins.spec] at hrequested'
  obtain ⟨hp, hside, hmakes⟩ := h.left.requests hopen.twins.left hrequested
  obtain ⟨hq, hside', hmakes'⟩ := h.right.requests hopen.twins.right hrequested'
  rw [← hleft] at hmakes
  rw [← hright] at hmakes'
  obtain ⟨w', hgrown, hpair, hstores⟩ :=
    h.pair hlayers hside hside' hmakes hmakes' hprovided hprovided'
  refine .done hgrown ⟨hpair, ?_, ?_, ?_, ?_⟩ hstores
  · rw [hp, hq, hopen.twins.spec]
  · rw [hp, hq]
  · rw [hp, hq]
  · rw [hp]
    exact hbody ▸ hallowed

/-- A program that is made anew on both sides. -/
theorem makes_alike (hopen : Open con environment w f g) {body : List Node}
    {data : Option Value} {depths : List Value}
    (hallowed : (con.licence f.template.spec).AllowsNodes body) :
    (parallel con environment).Alike w (fun w' => (parallel con environment).Programs w' f)
      (Render.newProgram body data depths) (Render.newProgram body data depths) := by
  intro s t h
  obtain ⟨layer, rest, hlayers, _, _, _⟩ := hopen.top
  obtain ⟨hside, hmakes⟩ := h.left.unkept { s with freshProgram := s.freshProgram + 1 }
    not_false (fun _ _ => rfl) rfl rfl layer.left.identity 0
  obtain ⟨hside', hmakes'⟩ := h.right.unkept { t with freshProgram := t.freshProgram + 1 }
    not_false (fun _ _ => rfl) rfl rfl layer.right.identity 0
  obtain ⟨w', hgrown, hpair, hstores⟩ :=
    h.pair hlayers hside hside' hmakes hmakes' ⟨_, _, _, rfl⟩ ⟨_, _, _, rfl⟩
  exact .done hgrown ⟨hpair, rfl, rfl, rfl, hallowed⟩ hstores

/-- The layer of two frames that were just opened: their empty programs stand
for each other. -/
def opened (t u : Template) : Layer :=
  ⟨t, u, fun i j => i = t.noop.identity ∧ j = u.noop.identity⟩

theorem opened_holds (h : Stores con environment w s t) {a b : Template}
    (htwins : Twins con environment w a b) : (opened a b).Holds s t := by
  obtain ⟨_, _, _, hnoop⟩ := h.left.made _ a htwins.left
  obtain ⟨_, _, _, hnoop'⟩ := h.right.made _ b htwins.right
  refine ⟨?_, ?_, ?_⟩
  · rintro i j ⟨rfl, rfl⟩
    exact ⟨hnoop, hnoop'⟩
  · rintro i j i' j' ⟨rfl, rfl⟩ ⟨rfl, rfl⟩
    exact iff_of_true rfl rfl
  · rintro i j ⟨rfl, rfl⟩ index
    exact iff_of_false (h.left.keptIdentity?_ne_noop htwins.left index)
      (h.right.keptIdentity?_ne_noop htwins.right index)

/-- A frame is opened on both sides, and closed later. -/
theorem enters (hopens : Twins con environment w f.template g.template ∧ f.options = g.options)
    (h : Stores con environment w s t) :
    ∃ inner, Open con environment inner f g ∧ Stores con environment inner (s.enter f) (t.enter g) ∧
      ∀ {last s' t'}, Grows inner last → Stores con environment last s' t' →
        ∃ w', Grows w w' ∧
          Stores con environment w' { s' with frames := s.frames }
            { t' with frames := t.frames } := by
  obtain ⟨htwins, hoptions⟩ := hopens
  -- The layer of these frames lies on those of the frames around them, and is taken off at the end.
  let layer := opened f.template g.template
  let inner : World := { w with layers := layer :: w.layers }
  have hknows : Knows w inner := ⟨fun _ _ h => h, fun _ _ h => h⟩
  have hentered : Stores con environment w (s.enter f) (t.enter g) :=
    h.congr { h with } h.pen rfl rfl
  have hregistered := hentered.toRegistered.weaken fun _ _ hentry => hentry.grow hknows
  refine ⟨inner, ?_, ?_, ?_⟩
  · exact ⟨htwins.grow hknows, hoptions, layer, w.layers, rfl, rfl, rfl, rfl, rfl⟩
  · refine { hregistered with
      pen := h.pen
      left := hentered.left
      right := hentered.right
      layers := ?_ }
    intro other member
    rcases List.mem_cons.mp member with rfl | hrest
    · exact opened_holds hentered htwins
    · exact hentered.layers other hrest
  · intro last s' t' hgrown hlast
    let outer : World := { last with layers := w.layers }
    have hgrown' : Grows w outer := ⟨⟨hgrown.left, hgrown.right⟩, .refl _⟩
    have hknows' : Knows last outer := ⟨fun _ _ h => h, fun _ _ h => h⟩
    have hlayers := hgrown.layers
    generalize hall : last.layers = layers at hlayers
    cases hlayers with
    | @cons _ layer' _ _ _ _ =>
        have hclosed : Stores con environment last { s' with frames := s.frames }
            { t' with frames := t.frames } := hlast.congr { hlast with } hlast.pen rfl rfl
        have hregistered' := hclosed.toRegistered.weaken fun _ _ hentry => hentry.grow hknows'
        refine ⟨outer, hgrown', { hregistered' with
          pen := hlast.pen
          left := hclosed.left
          right := hclosed.right
          layers := ?_ }⟩
        intro other member
        have hother : other ∈ last.layers := by
          rw [hall]
          exact List.mem_cons_of_mem _ member
        exact hclosed.layers other hother

/-- Both runtimes obey the laws, so all that they render is alike. -/
theorem lawful (con : Conventions True) {environment : Environment}
    (hsteady : environment.Steady) :
    (parallel con environment).Lawful {} { partials := false } where
  pen _ h := h.pen
  quiet := by
    intro w s t change h hquiet hpen
    have hpens := hpen s t h.pen
    obtain ⟨_, _, _, _, hleft⟩ := hquiet s
    obtain ⟨_, _, _, _, hright⟩ := hquiet t
    rw [hleft, hright] at hpens ⊢
    exact h.congr { h with } hpens rfl rfl
  logs h _ _ _ := h.congr { h with } h.pen rfl rfl
  frames_match h := twins_match h.twins h.options
  opens_match h := twins_match h.1 h.2
  opens_spec h := h.1.spec
  strict _ _ lenient := lenient
  allows_spec h := con.allows_spec _ h.twins.proper.allowed
  noop := by
    intro w f g hopen
    obtain ⟨layer, rest, hlayers, _, _, hpair⟩ := hopen.top
    refine ⟨⟨layer, rest, hlayers, hpair⟩, ?_, ?_, ?_, ?_⟩
    · rw [hopen.twins.proper.noop, hopen.twins.proper'.noop]
    · rw [hopen.twins.proper.noop, hopen.twins.proper'.noop]
    · rw [hopen.twins.proper.noop, hopen.twins.proper'.noop]
    · rw [hopen.twins.proper.noop]
      trivial
  helper := by
    intro w s t f g h hopen name
    refine ⟨h.mirrors.helper?_eq hopen.environment_eq hopen.options name, ?_⟩
    intro helper hfound
    exact con.allows_helper _ _ hopen.twins.proper.allowed (h.helper_allowed hfound)
  helper_names h hopen := h.mirrors.helperNames_eq hopen.environment_eq hopen.options
  partial_names h hopen := h.mirrors.partialNames_eq hopen.environment_eq hopen.options
  outline := by
    intro w s t f g h hopen _
    rw [hopen.options]
    exact h.mirrors.outline_eq g.options
  provides hopen hrequests hallowed := provides_alike hopen hrequests hallowed
  makes hopen hallowed := makes_alike hopen hallowed
  compares := by
    rintro w s t f g i j i' j' h _ _ ⟨layer, rest, hlayers, hpair⟩ ⟨layer', rest', hlayers', hpair'⟩
    obtain ⟨rfl, rfl⟩ := List.cons.inj (hlayers.symm.trans hlayers')
    have hholds : layer.Holds s t := h.layers layer (by rw [hlayers]; exact List.mem_cons_self)
    exact hholds.paired i i' j j' hpair hpair'
  counts _ _ hcounts := hcounts.elim
  finds hopen name := finds_alike hsteady hopen name
  enter hopens h _ := enters hopens h
  writes h := Parallel.writes_within h trivial h.pen fun _ hlast =>
    hlast.congr { hlast with } rfl rfl rfl

/-- Hosts of the two runtimes are alike as long as they keep to the conventions
and to one environment. -/
theorem serves (con : Conventions True) {environment : Environment}
    (hsteady : environment.Steady) :
    (parallel con environment).Serves {} { partials := false }
      (fun operation => con.Follows operation ∧ operation.Uses environment)
      (Twins con environment) where
  lawful := lawful con hsteady
  strict := id
  templates_grow hgrown h := h.grow hgrown.toKnows
  opens h _ := ⟨h, rfl⟩
  openHelpers h hallows := h.congr (h.toRegistered.openHelpers hallows.1) h.pen rfl rfl
  openPartials h := h.congr h.toRegistered.openPartials h.pen rfl rfl
  make := by
    rintro w s t other spec h ⟨hfollows, rfl⟩
    exact h.make hfollows.make.1 hfollows.make.2
  registerHelper h hallows := h.congr (h.toRegistered.registerHelper hallows.1) h.pen rfl rfl
  registerSource h registry name source :=
    h.congr (h.toRegistered.register registry name (.source source)) h.pen rfl rfl
  registerTemplate h htwins registry name :=
    h.congr (h.toRegistered.register registry name (.compiled htwins)) h.pen rfl rfl

theorem side_empty (con : Conventions True) (environment : Environment) :
    Side con environment (fun _ => none) .empty where
  made := by
    intro identity template hknown
    cases hknown
  kept := by
    intro identity index program hkept
    cases hkept
  distinct := by
    intro identity index other program hkept
    cases hkept

theorem hosts_empty (con : Conventions True) (environment : Environment) :
    (parallel con environment).Hosts (Twins con environment) ⟨fun _ => none, fun _ => none, []⟩
      .empty .empty where
  stores :=
    { Conventions.Registered.empty con _ with
      pen := rfl
      left := side_empty con environment
      right := side_empty con environment
      layers := by
        intro layer member
        cases member }
  length := rfl
  templates _ := .none

end KeptPartials

/-- Whether compiled partials are kept makes no difference to what a host gets.
Whatever it does with one environment, of a compiler that answers a source in
the same way at all times, each of its renders ends as it would if every source
were compiled each time it is referred to and no registry were ever changed by
a render. -/
theorem Host.keeps_partials_unseen (environment : Environment) (hsteady : environment.Steady)
    (blocks : Spec → Nat → List Node) (operations : List Operation)
    (huniform : Operation.Uniform True blocks operations)
    (huses : ∀ operation ∈ operations, operation.Uses environment) (levels : Nat) :
    (Host.empty.run {} levels operations).1 =
      (Host.empty.run { partials := false } levels operations).1 := by
  let con := Conventions.of huniform
  have hserves := KeptPartials.serves con hsteady
  have hallows : ∀ operation ∈ operations, con.Follows operation ∧ operation.Uses environment :=
    fun operation member => ⟨Conventions.of_follows huniform member, huses operation member⟩
  exact (hserves.run (KeptPartials.hosts_empty con environment) hallows levels).1

namespace TwoSources

def environment : Environment :=
  ⟨0, 0, {}, some ⟨fun _ source => .ok (.nodes [.text source])⟩, .standard⟩

/-- A template that refers to a partial, which is registered twice. -/
def operations : List Operation :=
  [.openHelpers .empty, .openPartials,
    .make environment (.nodes [.inclusion "p" (.this none)]),
    .registerSource 0 "p" "x", .render 0 .null none none none, .render 0 .null none none none,
    .registerSource 0 "p" "y", .render 0 .null none none none]

theorem steady : environment.Steady := by
  rintro _ ⟨⟩ _ _ _
  rfl

theorem uniform : Operation.Uniform True (fun _ _ => []) operations := by
  intro spec hspec
  constructor
  · have hbrings : spec = .nodes [.inclusion "p" (.this none)] ∨
        ∃ source, .nodes [.text source] = spec := by
      simpa [operations, environment, Operation.Brings] using hspec
    rcases hbrings with rfl | ⟨source, rfl⟩
    · simp [Licence.AllowsSpec, Licence.AllowsNodes, Licence.AllowsNode, Licence.AllowsExpr]
    · simp [Licence.AllowsSpec, Licence.AllowsNodes, Licence.AllowsNode]
  · intro helper hhelper
    simp [operations, Operation.BringsHelper, Registry.empty, Registry.get?, field?] at hhelper

theorem uses : ∀ operation ∈ operations, operation.Uses environment := by
  simp [operations, Operation.Uses]

end TwoSources

/-- The partial that is compiled at its first render stays until another source
is registered in its place. -/
theorem Host.keeps_partials_unseen_twice :
    (Host.empty.run { partials := false } 4 TwoSources.operations).1 =
      [.done "x", .done "x", .done "y"] := by
  rw [← Host.keeps_partials_unseen TwoSources.environment TwoSources.steady (fun _ _ => [])
    TwoSources.operations TwoSources.uniform TwoSources.uses 4]
  decide +kernel

end Stencil
