import Stencil.Proofs.Licence
import Stencil.Proofs.Likeness.Basic
import Stencil.Render.Run

/-!
Two runtimes side by side. Frames, programs, scenes and tasks stand for each
other when the one may be put in place of the other, which is what the worlds
of a likeness keep account of. The laws of `Lawful` are all that a pair of
runtimes has to obey: what the registries answer, how blocks are requested, how
partials are found, and what opening a frame does.
-/

/-- What stands for each other in one way does so in a weaker one. -/
theorem Option.Rel.weaken {α β : Type} {r r' : α → β → Prop} {a : Option α} {b : Option β}
    (h : Option.Rel r a b) (hweaker : ∀ x y, r x y → r' x y) : Option.Rel r' a b := by
  cases h with
  | none => exact .none
  | some hxy => exact .some (hweaker _ _ hxy)

theorem Option.Rel.isSome_eq {α β : Type} {r : α → β → Prop} {a : Option α} {b : Option β}
    (h : Option.Rel r a b) : a.isSome = b.isSome := by
  cases h with
  | none => rfl
  | some _ => rfl

theorem Option.Rel.same {α : Type} {r : α → α → Prop} {a : Option α}
    (h : ∀ x, x ∈ a → r x x) : Option.Rel r a a := by
  cases a with
  | none => exact .none
  | some x => exact .some (h x rfl)

namespace Stencil

/-- The store after something that changed only what was logged, traced and
counted, and the pen. -/
def Store.Quiet (store after : Store) : Prop :=
  ∃ trace messages evaluations pen,
    after = { store with trace, messages, evaluations, pen }

namespace Store

theorem Quiet.eq {store after : Store} (h : store.Quiet after) :
    after = { store with
      pen := after.pen, trace := after.trace, messages := after.messages,
      evaluations := after.evaluations, frames := after.frames, visits := after.visits,
      compilations := after.compilations } := by
  obtain ⟨_, _, _, _, rfl⟩ := h
  rfl

theorem note_quiet (store : Store) (diagnostic : Diagnostic) :
    store.Quiet (store.note diagnostic) :=
  ⟨_, _, _, _, rfl⟩

theorem log_quiet (store : Store) (environment : Environment) (severity : Severity)
    (text : String) : store.Quiet (store.log environment severity text) :=
  ⟨_, _, _, _, rfl⟩

theorem tally_quiet (store : Store) (tally : Tally) : store.Quiet (store.tally tally) :=
  ⟨_, _, _, _, rfl⟩

theorem pen_quiet (store : Store) (pen : Pen) : store.Quiet { store with pen } :=
  ⟨_, _, _, _, rfl⟩

end Store

/-- How much of what an unknown helper could mean is accepted. -/
def MissingPolicy.leniency : MissingPolicy → Nat
  | .fail => 0
  | .asymmetric => 1
  | .empty => 2

/-- Settings that accept whatever others accept. -/
structure Settings.EasedBy (strict eased : Settings) : Prop where
  missing : strict.missing.leniency ≤ eased.missing.leniency
  depth : strict.maxPartialDepth ≤ eased.maxPartialDepth
  output : ∀ limit, eased.maxOutputBytes = some limit →
    ∃ bound, strict.maxOutputBytes = some bound ∧ bound ≤ limit

/-- Two frames that look the same to the programs that run in them, apart from
what the store holds for them, and apart from settings that may be eased. -/
structure Frame.Matches (lenient : Prop) (f g : Frame) : Prop where
  settings : f.settings = g.settings ∨ lenient ∧ f.settings.EasedBy g.settings
  data : f.options.data = g.options.data
  depth : f.options.depth = g.options.depth

theorem Frame.matches_self (lenient : Prop) (f : Frame) : f.Matches lenient f :=
  ⟨.inl rfl, rfl, rfl⟩

theorem Frame.Matches.maxPartialDepth_le {lenient : Prop} {f g : Frame} (h : f.Matches lenient g) :
    f.settings.maxPartialDepth ≤ g.settings.maxPartialDepth := by
  rcases h.settings with hsame | ⟨_, heased⟩
  · exact Nat.le_of_eq (congrArg Settings.maxPartialDepth hsame)
  · exact heased.depth

/-- Two runtimes held side by side. -/
structure Parallel (World : Type) extends Likeness World where
  /-- Two open frames that stand for each other. -/
  frames : World → Frame → Frame → Prop
  /-- Two frames that may be opened in place of each other. -/
  opens : World → Frame → Frame → Prop
  /-- Two identities of programs that stand for each other. -/
  identities : World → Nat → Nat → Prop
  /-- What the programs in a frame may do. -/
  licence : Frame → Licence
  /-- Whether a page is being written, with pens that have to be equal. -/
  writing : World → Prop := fun _ => True
  frames_grow : ∀ {w w' f g}, grows w w' → frames w f g → frames w' f g
  identities_grow : ∀ {w w' i j}, grows w w' → identities w i j → identities w' i j
  writing_grows : ∀ {w w'}, grows w w' → writing w → writing w' := by exact fun _ _ => trivial

namespace Parallel

variable {World : Type} (par : Parallel World) {w w' : World}

/-- Programs that stand for each other in a frame: they differ in nothing but
their identities, and may run there. -/
structure Programs (w : World) (frame : Frame) (p q : Program) : Prop where
  identity : par.identities w p.identity q.identity
  body : p.body = q.body
  data : p.data = q.data
  depths : p.depths = q.depths
  allowed : (par.licence frame).AllowsNodes p.body

structure Options (w : World) (frame : Frame) (o p : HelperOptions) : Prop where
  block : Option.Rel (par.Programs w frame) o.block p.block
  inverse : par.Programs w frame o.inverse p.inverse
  data : o.data = p.data

structure Scenes (w : World) (a b : Scene) : Prop where
  frame : par.frames w a.frame b.frame
  this : a.this = b.this
  scope : a.scope = b.scope
  data : a.data = b.data
  depths : a.depths = b.depths
  options : Option.Rel (par.Options w a.frame) a.options b.options

structure Pages (w : World) (p q : Page) : Prop where
  writing : par.writing w
  frame : par.frames w p.frame q.frame
  elements : p.elements = q.elements
  data : p.data = q.data
  scopes : p.scopes = q.scopes
  indent : p.indent = q.indent

/-- Tasks that stand for each other. -/
inductive Tasks (w : World) : Task → Task → Prop
  | nodes {a b : Scene} {nodes : List Node} (scene : par.Scenes w a b)
      (allowed : (par.licence a.frame).AllowsNodes nodes) :
      Tasks w (.nodes a nodes) (.nodes b nodes)
  | template {t u : Template} {context : Value} {o p : RenderOptions}
      (opens : par.opens w ⟨t, o⟩ ⟨u, p⟩) :
      Tasks w (.template t context o) (.template u context p)
  | page {p q : Page} {elements : List Source.Element} (page : par.Pages w p q) :
      Tasks w (.page p elements) (.page q elements)

/-- Workers that carry out tasks alike, in every world. -/
def Workers (worker worker' : Worker) : Prop :=
  ∀ w t u, par.Tasks w t u → par.Same w (worker t) (worker' u)

/-- The program of a numbered block, as a runtime provides it. -/
def provide (reuse : Reuse) (template : Template) (index : Nat) (body : List Node)
    (data : Option Value) : Render Program :=
  if reuse.programs then Render.requestProgram template index body data
  else Render.newProgram body (data.filter Value.isTruthy) []

/-- What two runtimes obey so that all that they render is alike. -/
structure Lawful (reuse reuse' : Reuse) : Prop where
  pen : ∀ {w s t}, par.writing w → par.stores w s t → s.pen = t.pen
  quiet : ∀ {w s t} (change : Store → Store), par.stores w s t →
    (∀ s : Store, s.Quiet (change s)) →
    (∀ s t : Store, s.pen = t.pen → (change s).pen = (change t).pen) →
    par.stores w (change s) (change t)
  logs : ∀ {w s t f g}, par.stores w s t → par.frames w f g → ∀ severity text,
    par.stores w (s.log f.environment severity text) (t.log g.environment severity text)
  frames_match : ∀ {w f g}, par.frames w f g → f.Matches par.lenient g
  opens_match : ∀ {w f g}, par.opens w f g → f.Matches par.lenient g
  opens_spec : ∀ {w f g}, par.opens w f g → f.template.spec = g.template.spec
  strict : ∀ f, (par.licence f).settings ∨ (par.licence f).handles → ¬ par.lenient
  allows_spec : ∀ {w f g}, par.frames w f g → (par.licence f).AllowsSpec f.template.spec
  noop : ∀ {w f g}, par.frames w f g → par.Programs w f f.template.noop g.template.noop
  helper : ∀ {w s t f g}, par.stores w s t → par.frames w f g → ∀ name,
    s.helper? f name = t.helper? g name ∧
      ∀ helper ∈ s.helper? f name, (par.licence f).AllowsHelper helper
  helper_names : ∀ {w s t f g}, par.stores w s t → par.frames w f g →
    Page.helperNames s f = Page.helperNames t g
  partial_names : ∀ {w s t f g}, par.stores w s t → par.frames w f g →
    Page.partialNames s f = Page.partialNames t g
  outline : ∀ {w s t f g}, par.stores w s t → par.frames w f g → (par.licence f).options →
    f.options.outline s = g.options.outline t
  provides : ∀ {w f g index body data}, par.frames w f g →
    (par.licence f).requests index body → (par.licence f).AllowsNodes body →
    par.Alike w (fun w' => par.Programs w' f) (provide reuse f.template index body data)
      (provide reuse' g.template index body data)
  makes : ∀ {w f g body data depths}, par.frames w f g → (par.licence f).AllowsNodes body →
    par.Alike w (fun w' => par.Programs w' f) (Render.newProgram body data depths)
      (Render.newProgram body data depths)
  compares : ∀ {w s t f g i j i' j'}, par.stores w s t → par.frames w f g →
    (par.licence f).compares →
    par.identities w i i' → par.identities w j j' → (i = j ↔ i' = j')
  counts : ∀ {w s t f g}, par.stores w s t → par.frames w f g → (par.licence f).counts →
    (s.slotsOf f.template).size = (t.slotsOf g.template).size
  finds : ∀ {w f g}, par.frames w f g → ∀ name,
    par.Alike w (fun w' t u => par.opens w' ⟨t, f.options.nested⟩ ⟨u, g.options.nested⟩)
      (f.partialTemplate reuse name) (g.partialTemplate reuse' name)
  enter : ∀ {w f g s t}, par.opens w f g → par.stores w s t →
    f.options.depth ≤ f.settings.maxPartialDepth →
    ∃ inner, par.frames inner f g ∧ par.stores inner (s.enter f) (t.enter g) ∧
      ∀ {last s' t'}, par.grows inner last → par.stores last s' t' →
        ∃ w', par.grows w w' ∧
          par.stores w' { s' with frames := s.frames } { t' with frames := t.frames }
  writes : ∀ {w s t}, par.stores w s t →
    ∃ inner, par.writing inner ∧ (∀ f g, par.frames w f g → par.frames inner f g) ∧
      par.stores inner { s with pen := {} } { t with pen := {} } ∧
        ∀ {last s' t'}, par.grows inner last → par.stores last s' t' →
          ∃ w', par.grows w w' ∧
            par.stores w' { s' with pen := s.pen } { t' with pen := t.pen }

variable {par}

/-- Where the pens are always equal, a page is written in the world around it. -/
theorem writes_within {s t : Store} (h : par.stores w s t) (hwriting : par.writing w)
    (hpen : s.pen = t.pen)
    (hpens : ∀ {w s t} (pen : Pen), par.stores w s t →
      par.stores w { s with pen } { t with pen }) :
    ∃ inner, par.writing inner ∧ (∀ f g, par.frames w f g → par.frames inner f g) ∧
      par.stores inner { s with pen := {} } { t with pen := {} } ∧
        ∀ {last s' t'}, par.grows inner last → par.stores last s' t' →
          ∃ w', par.grows w w' ∧
            par.stores w' { s' with pen := s.pen } { t' with pen := t.pen } := by
  refine ⟨w, hwriting, fun _ _ hframe => hframe, hpens {} h, ?_⟩
  intro last s' t' grown hlast
  rw [hpen]
  exact ⟨last, grown, hpens t.pen hlast⟩

theorem Programs.grow {frame : Frame} {p q : Program} (h : par.Programs w frame p q)
    (hgrown : par.grows w w') : par.Programs w' frame p q :=
  { h with identity := par.identities_grow hgrown h.identity }

theorem Options.grow {frame : Frame} {o p : HelperOptions} (h : par.Options w frame o p)
    (hgrown : par.grows w w') : par.Options w' frame o p where
  block := h.block.weaken fun _ _ hprograms => hprograms.grow hgrown
  inverse := h.inverse.grow hgrown
  data := h.data

theorem Scenes.grow {a b : Scene} (h : par.Scenes w a b) (hgrown : par.grows w w') :
    par.Scenes w' a b where
  frame := par.frames_grow hgrown h.frame
  this := h.this
  scope := h.scope
  data := h.data
  depths := h.depths
  options := h.options.weaken fun _ _ hoptions => hoptions.grow hgrown

theorem Pages.grow {p q : Page} (h : par.Pages w p q) (hgrown : par.grows w w') :
    par.Pages w' p q :=
  { h with
    writing := par.writing_grows hgrown h.writing
    frame := par.frames_grow hgrown h.frame }

end Parallel

end Stencil
