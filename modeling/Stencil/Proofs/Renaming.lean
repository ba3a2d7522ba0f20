import Stencil.Proofs.Likeness.Runs
import Stencil.Proofs.Realms

/-!
Renders of the second party. Beside the run that leaves out the renders of the
first party, each render of the second ends the same: all that it looks up is in
its own realm, where the two runs differ in numbers only, and no program sees
more of a number than whether it is equal to another one.
-/

namespace Stencil

namespace Isolation

variable {first second : Realm} {templates : List Template} {w w' : World} {s t : Store}
  {f g : Frame} {name : String}

/-- Frames of the second party that stand for each other. -/
structure Frames (realm : Realm) (w : World) (f g : Frame) : Prop where
  templates : Templates realm w f.template g.template
  options : f.options = g.options
  runs : realm.Runs f

namespace Frames

theorem grow (h : Frames second w f g) (hknows : Knows w w') : Frames second w' f g :=
  { h with templates := h.templates.grow hknows }

theorem environment (h : Frames second w f g) : f.environment = g.environment :=
  h.templates.environment

theorem matches_frame (h : Frames second w f g) : f.Matches False g := by
  refine ⟨.inl (congrArg Environment.settings h.environment), ?_, ?_⟩
  · rw [h.options]
  · rw [h.options]

end Frames

namespace Stores

/-- The names in the registry that the caller supplied. -/
theorem override_names (h : Stores first second templates w s t) (hframes : Frames second w f g) :
    f.options.partials.map (fun registry => (s.partialsOf registry).names) =
      f.options.partials.map fun registry => (t.partialsOf registry).names := by
  cases hoverride : f.options.partials with
  | none => rfl
  | some registry =>
      have hregistry := hframes.runs.override registry hoverride
      exact congrArg some (h.partials registry hregistry).names

theorem partialNames_eq (h : Stores first second templates w s t)
    (hframes : Frames second w f g) : Page.partialNames s f = Page.partialNames t g := by
  have hown := (h.partials _ hframes.runs.serves.home).names
  unfold Page.partialNames
  rw [h.override_names hframes, hown, hframes.environment, hframes.options]

theorem outline_eq (h : Stores first second templates w s t) (hframes : Frames second w f g) :
    f.options.outline s = g.options.outline t := by
  have hpartials : f.options.partials.map (fun registry => (s.partialsOf registry).outline) =
      f.options.partials.map fun registry => (t.partialsOf registry).outline := by
    have hnames := congrArg (Option.map fun names => Outline.list (names.map .text))
      (h.override_names hframes)
    rw [Option.map_map, Option.map_map] at hnames
    exact hnames
  rw [← hframes.options]
  unfold RenderOptions.outline
  rw [hpartials, Store.helpersOf_congr h.helpers]

theorem partialHome_eq (h : Stores first second templates w s t) (hframes : Frames second w f g)
    (name : String) : s.partialHome f name = t.partialHome g name := by
  unfold Store.partialHome Registry.contains
  rw [hframes.environment, ← hframes.options]
  cases hoverride : f.options.partials with
  | none => rfl
  | some registry =>
      have hregistry := hframes.runs.override registry hoverride
      simp only [(h.partials registry hregistry).contains_eq name]

/-- A partial is found in the same place in both runs, if it is found. -/
theorem entry (h : Stores first second templates w s t) (hframes : Frames second w f g)
    (name : String) : Option.Rel (Entries second w) (s.entry? f name) (t.entry? g name) := by
  unfold Store.entry?
  rw [← h.partialHome_eq hframes name]
  exact (h.partials _ (hframes.runs.home s name)).get name

theorem attempted (h : Stores first second templates w s t) (compilation other : Compilation) :
    Stores first second templates w (s.attempted compilation) (t.attempted other) :=
  h.congr h.pen rfl rfl

/-- Where a source is accepted, the first party does not look. -/
theorem home_apart (h : Stores first second templates w s t) {source : String} {spec : Spec}
    (hruns : second.Runs f) (hfound : s.entry? f name = some (.source source))
    (hcompiles : f.environment.Compiles source spec) :
    ¬ first.registries (s.partialHome f name) := by
  intro hfirst
  obtain ⟨_, hsource, hrefuse⟩ := h.shared _ name _ hfirst (hruns.home s name) hfound
  obtain rfl := Partial.source.inj hsource
  exact hrefuse _ spec (.inr hruns.serves) hcompiles

end Stores

/-- The run with the renders of both parties beside the run with those of the
second one. -/
def parallel (first second : Realm) (templates : List Template) : Parallel World where
  grows := Grows
  stores := Stores first second templates
  grows_refl := .refl
  grows_trans := .trans
  frames := Frames second
  opens := Frames second
  identities w := w.programs
  licence _ := .free
  writing w := w.writing = true
  frames_grow hgrown h := h.grow hgrown.toKnows
  identities_grow hgrown h := hgrown.programs _ _ h
  writing_grows hgrown h := hgrown.writing.trans h

theorem Programs.allowed {p q : Program} (h : Programs w.programs p q) (f : Frame) :
    (parallel first second templates).Programs w f p q :=
  ⟨h.identity, h.body, h.data, h.depths, Licence.free_allowsNodes p.body⟩

theorem provides_alike (hframes : Frames second w f g) (index : Nat) (body : List Node)
    (data : Option Value) :
    (parallel first second templates).Alike w
      (fun w' => (parallel first second templates).Programs w' f)
      (Render.requestProgram f.template index body data)
      (Render.requestProgram g.template index body data) := by
  intro s t h
  obtain ⟨w', p, q, s', t', hrun, hrun', hgrown, hprograms, hstores⟩ :=
    Stores.request h hframes.templates index body data
  rw [hrun, hrun']
  exact .done hgrown (hprograms.allowed f) hstores

theorem makes_alike (f : Frame) (body : List Node) (data : Option Value) (depths : List Value) :
    (parallel first second templates).Alike w
      (fun w' => (parallel first second templates).Programs w' f)
      (Render.newProgram body data depths) (Render.newProgram body data depths) := by
  intro s t h
  obtain ⟨hgrown, hstores⟩ := Stores.newProgram h
  exact .done hgrown ⟨Or.inr ⟨rfl, rfl⟩, rfl, rfl, rfl, Licence.free_allowsNodes body⟩ hstores

/-- The templates that two references to a partial find. -/
abbrev Found (second : Realm) (f g : Frame) (w : World) (t u : Template) : Prop :=
  Frames second w ⟨t, f.options.nested⟩ ⟨u, g.options.nested⟩

/-- A source is accepted in both runs, and its templates are kept where only the
second party looks. -/
theorem accepted_ends (h : Stores first second templates w s t) (hframes : Frames second w f g)
    {spec : Spec} (hapart : ¬ first.registries (s.partialHome f name)) :
    (parallel first second templates).Ends w (Found second f g)
      (f.accepted {} name spec s) (g.accepted {} name spec t) := by
  have hserves : second.Serves f.environment := hframes.runs.serves
  unfold Frame.accepted
  rw [← hframes.environment, ← h.partialHome_eq hframes name]
  have hattempted := h.attempted ⟨s.partialHome f name, name, true⟩
    ⟨s.partialHome f name, name, true⟩
  obtain ⟨w', hgrown, hnew, hmade⟩ := hattempted.make hserves spec
  refine .done hgrown ⟨hnew, congrArg RenderOptions.nested hframes.options, ?_⟩ ?_
  · exact hframes.runs.nested hserves
  · exact hmade.register hnew (Store.newTemplate_numbers _ _ _) (Store.newTemplate_numbers _ _ _)
      hapart name

theorem finds_alike (hsteady : ∀ environment, second.Serves environment → environment.Steady)
    (hframes : Frames second w f g) (name : String) :
    (parallel first second templates).Alike w (Found second f g)
      (f.partialTemplate {} name) (g.partialTemplate {} name) := by
  intro s t h
  have hentry := Stores.entry h hframes name
  generalize hleft : s.entry? f name = a at hentry
  generalize hright : t.entry? g name = b at hentry
  cases hentry with
  | none =>
      rw [Frame.partialTemplate_missing hleft, Frame.partialTemplate_missing hright]
      exact .failed _ (.refl w) h
  | some hentries =>
      cases hentries with
      | compiled htemplates =>
          rw [Frame.partialTemplate_compiled hleft, Frame.partialTemplate_compiled hright]
          refine .done (.refl w) ⟨htemplates, ?_, ?_⟩ h
          · exact congrArg RenderOptions.nested hframes.options
          · exact hframes.runs.nested htemplates.serves
      | source source =>
          have hcompiler : g.environment.compiler = f.environment.compiler :=
            congrArg Environment.compiler hframes.environment.symm
          refine Frame.source_ends h (Stores.attempted h) hleft hright hcompiler ?_ ?_
          · exact fun compiler hgiven =>
              hsteady _ hframes.runs.serves compiler hgiven _ _ source
          · intro compiler spec hgiven hanswer
            have hcompiles : f.environment.Compiles source spec := ⟨compiler, _, hgiven, hanswer⟩
            exact accepted_ends h hframes (Stores.home_apart h hframes.runs hleft hcompiles)

/-- Beside the run without the first party all renders of the second one are
alike. -/
theorem lawful (first : Realm) (templates : List Template)
    (hsteady : ∀ environment, second.Serves environment → environment.Steady) :
    (parallel first second templates).Lawful {} {} where
  pen hwriting h := h.pen hwriting
  quiet := by
    intro w s t change h hquiet hpen
    have hpens := fun hwriting => hpen s t (h.pen hwriting)
    obtain ⟨_, _, _, _, hleft⟩ := hquiet s
    obtain ⟨_, _, _, _, hright⟩ := hquiet t
    rw [hleft, hright] at hpens ⊢
    exact h.congr hpens rfl rfl
  logs h _ _ _ := h.congr h.pen rfl rfl
  frames_match h := h.matches_frame
  opens_match h := h.matches_frame
  opens_spec h := h.templates.spec
  strict _ _ lenient := lenient
  allows_spec _ := Licence.free_allowsSpec _
  noop h := h.templates.noop.allowed _
  helper h hframes name :=
    ⟨Store.helper?_congr h.helpers hframes.environment hframes.options name,
      fun helper _ => Licence.free_allowsHelper helper⟩
  helper_names h hframes :=
    Page.helperNames_congr h.helpers hframes.environment hframes.options
  partial_names h hframes := h.partialNames_eq hframes
  outline h hframes _ := h.outline_eq hframes
  provides hframes _ _ := provides_alike hframes _ _ _
  makes _ _ := makes_alike _ _ _ _
  compares := by
    intro w s t f g i j i' j' h _ _ hi hj
    exact h.programs.unique i i' j j' hi hj
  counts h hframes _ := (h.slots _ _ hframes.templates.identity).size
  finds hframes name := finds_alike hsteady hframes name
  enter := by
    intro w f g s t hframes h _
    refine ⟨w, hframes, h.congr h.pen rfl rfl, ?_⟩
    intro last s' t' hgrown hlast
    exact ⟨last, hgrown, hlast.congr hlast.pen rfl rfl⟩
  writes := by
    intro w s t h
    refine ⟨{ w with writing := true }, rfl, ?_, h.turn true fun _ => rfl, ?_⟩
    · exact fun _ _ hframes => hframes.grow ⟨fun _ _ hij => hij, fun _ _ hij => hij⟩
    · intro last s' t' hgrown hlast
      exact ⟨{ last with writing := w.writing }, ⟨⟨hgrown.templates, hgrown.programs⟩, rfl⟩,
        hlast.turn w.writing h.pen⟩

end Isolation

end Stencil
