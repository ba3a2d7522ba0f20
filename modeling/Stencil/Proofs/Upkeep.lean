import Stencil.Proofs.Finding
import Stencil.Proofs.Likeness.Runs
import Stencil.Proofs.Requesting

/-!
What renders keep up. An upkeep names something that holds of the store, in
worlds that say which frames are open and what became known on the way. If
finding a partial, making a program and opening a frame keep it up, then so does
every render, however it ends. A render stands for itself, so this is the case
of two runtimes that are one.
-/

namespace Stencil

/-- Something that holds of a store, and of the frames that are open or may be
opened next. -/
structure Upkeep (World : Type) where
  holds : World → Store → Prop
  frames : World → Frame → Prop
  opens : World → Frame → Prop
  /-- When more is known in one world than in another. -/
  grows : World → World → Prop := Eq
  grows_refl : ∀ w, grows w w := by exact fun _ => rfl
  grows_trans : ∀ {u v w}, grows u v → grows v w → grows u w := by exact Eq.trans
  frames_grow : ∀ {w w' f}, grows w w' → frames w f → frames w' f := by
    rintro _ _ _ rfl hframe
    exact hframe

/-- A store with the same registries as another one, in which the same was
compiled. -/
structure Store.SameEntries (store after : Store) : Prop where
  helpers : after.helpers = store.helpers
  partials : after.partials = store.partials
  freshHelpers : after.freshHelpers = store.freshHelpers
  freshPartials : after.freshPartials = store.freshPartials
  compilations : after.compilations = store.compilations

namespace Upkeep

variable {World : Type}

/-- What keeps something up in a whole render. -/
structure Lawful (up : Upkeep World) : Prop where
  quiet : ∀ {w s t}, up.holds w s → s.Quiet t → up.holds w t
  requests : ∀ {w f s}, up.frames w f → up.holds w s → ∀ index body data,
    up.holds w (Render.requestProgram f.template index body data s).2
  makes : ∀ {w s}, up.holds w s → up.holds w { s with freshProgram := s.freshProgram + 1 }
  finds : ∀ {w f s name outcome after}, up.frames w f → up.holds w s →
    f.Finds {} name s (outcome, after) →
    ∃ w', up.grows w w' ∧ up.holds w' after ∧
      ∀ t, outcome = .done t → up.opens w' ⟨t, f.options.nested⟩
  enter : ∀ {w f s}, up.opens w f → up.holds w s → f.options.depth ≤ f.settings.maxPartialDepth →
    ∃ inner, up.frames inner f ∧ up.holds inner (s.enter f) ∧
      ∀ {last after}, up.grows inner last → up.holds last after →
        ∃ w', up.grows w w' ∧ up.holds w' { after with frames := s.frames }

def diagonal (up : Upkeep World) : Parallel World where
  grows := up.grows
  stores w s t := s = t ∧ up.holds w s
  grows_refl := up.grows_refl
  grows_trans := up.grows_trans
  frames w f g := f = g ∧ up.frames w f
  opens w f g := f = g ∧ up.opens w f
  identities _ := Eq
  licence _ := .free
  frames_grow := by
    rintro w w' f _ grown ⟨rfl, hframe⟩
    exact ⟨rfl, up.frames_grow grown hframe⟩
  identities_grow _ h := h

variable {up : Upkeep World} {w : World}

/-- An action keeps up what holds when its store does. -/
theorem diagonal_alike {values : World → α → α → Prop} {action : Render α}
    (h : ∀ s, up.holds w s → ∃ w', up.grows w w' ∧ up.holds w' (action s).2 ∧
      ∀ a, (action s).1 = .done a → values w' a a) :
    up.diagonal.Alike w values action action := by
  rintro s _ ⟨rfl, hholds⟩
  obtain ⟨w', grown, hafter, hvalue⟩ := h s hholds
  generalize action s = x at hafter hvalue
  obtain ⟨outcome, after⟩ := x
  cases outcome with
  | done a => exact .done grown (hvalue a rfl) ⟨rfl, hafter⟩
  | failed e => exact .failed e grown ⟨rfl, hafter⟩
  | exhausted => exact .exhausted grown ⟨rfl, hafter⟩

theorem program_self (f : Frame) (p : Program) : up.diagonal.Programs w f p p :=
  ⟨rfl, rfl, rfl, rfl, Licence.free_allowsNodes p.body⟩

namespace Lawful

theorem makes_alike (laws : up.Lawful) (f : Frame) (body : List Node) (data : Option Value)
    (depths : List Value) :
    up.diagonal.Alike w (fun w' => up.diagonal.Programs w' f)
      (Render.newProgram body data depths) (Render.newProgram body data depths) := by
  apply diagonal_alike
  intro s hholds
  exact ⟨w, up.grows_refl w, laws.makes hholds, fun p _ => program_self f p⟩

theorem requests_alike (laws : up.Lawful) {f : Frame} (hframe : up.frames w f) (index : Nat)
    (body : List Node) (data : Option Value) :
    up.diagonal.Alike w (fun w' => up.diagonal.Programs w' f)
      (Render.requestProgram f.template index body data)
      (Render.requestProgram f.template index body data) := by
  apply diagonal_alike
  intro s hholds
  have hafter := laws.requests hframe hholds index body data
  exact ⟨w, up.grows_refl w, hafter, fun p _ => program_self f p⟩

theorem finds_alike (laws : up.Lawful) {f : Frame} (hframe : up.frames w f) (name : String) :
    up.diagonal.Alike w
      (fun w' t u => up.diagonal.opens w' ⟨t, f.options.nested⟩ ⟨u, f.options.nested⟩)
      (f.partialTemplate {} name) (f.partialTemplate {} name) := by
  apply diagonal_alike
  intro s hholds
  obtain ⟨w', grown, hafter, hopens⟩ := laws.finds hframe hholds (f.finds_partialTemplate {} name s)
  exact ⟨w', grown, hafter, fun t hdone => ⟨rfl, hopens t hdone⟩⟩

/-- One runtime beside itself obeys the laws of two. -/
theorem diagonal_lawful (laws : up.Lawful) : up.diagonal.Lawful {} {} where
  pen := by
    rintro w s _ _ ⟨rfl, _⟩
    rfl
  quiet := by
    rintro w s _ change ⟨rfl, hholds⟩ hquiet _
    exact ⟨rfl, laws.quiet hholds (hquiet s)⟩
  logs := by
    rintro w s _ f _ ⟨rfl, hholds⟩ ⟨rfl, _⟩ severity text
    exact ⟨rfl, laws.quiet hholds (s.log_quiet _ _ _)⟩
  frames_match := by
    rintro w f _ ⟨rfl, _⟩
    exact f.matches_self _
  opens_match := by
    rintro w f _ ⟨rfl, _⟩
    exact f.matches_self _
  opens_spec := by
    rintro w f _ ⟨rfl, _⟩
    rfl
  strict _ _ lenient := lenient
  allows_spec _ := Licence.free_allowsSpec _
  noop := by
    rintro w f _ ⟨rfl, _⟩
    exact program_self f _
  helper := by
    rintro w s _ f _ ⟨rfl, _⟩ ⟨rfl, _⟩ name
    exact ⟨rfl, fun helper _ => Licence.free_allowsHelper helper⟩
  helper_names := by
    rintro w s _ f _ ⟨rfl, _⟩ ⟨rfl, _⟩
    rfl
  partial_names := by
    rintro w s _ f _ ⟨rfl, _⟩ ⟨rfl, _⟩
    rfl
  outline := by
    rintro w s _ f _ ⟨rfl, _⟩ ⟨rfl, _⟩ _
    rfl
  provides := by
    rintro w f _ index body data ⟨rfl, hframe⟩ _ _
    exact laws.requests_alike hframe index body data
  makes := by
    rintro w f _ body data depths ⟨rfl, _⟩ _
    exact laws.makes_alike f body data depths
  compares := by
    rintro w s t f g i j _ _ _ _ _ rfl rfl
    exact Iff.rfl
  counts := by
    rintro w s _ f _ ⟨rfl, _⟩ ⟨rfl, _⟩ _
    rfl
  finds := by
    rintro w f _ ⟨rfl, hframe⟩ name
    exact laws.finds_alike hframe name
  enter := by
    rintro w f _ s _ ⟨rfl, hopens⟩ ⟨rfl, hholds⟩ hdepth
    obtain ⟨inner, hframe, hentered, hleave⟩ := laws.enter hopens hholds hdepth
    refine ⟨inner, ⟨rfl, hframe⟩, ⟨rfl, hentered⟩, ?_⟩
    rintro last s' _ grown ⟨rfl, hlast⟩
    obtain ⟨w', grown', hleft⟩ := hleave grown hlast
    exact ⟨w', grown', rfl, hleft⟩
  writes := by
    rintro w s _ ⟨rfl, hholds⟩
    refine Parallel.writes_within ⟨rfl, hholds⟩ trivial rfl ?_
    rintro w' s' _ pen ⟨rfl, hlast⟩
    exact ⟨rfl, laws.quiet hlast (s'.pen_quiet pen)⟩

/-- What is kept up holds after every render, however that ends. -/
theorem run_holds (laws : up.Lawful) (levels : Nat) {template : Template}
    {options : RenderOptions} {store : Store} (hopens : up.opens w ⟨template, options⟩)
    (hholds : up.holds w store) (context : Value) :
    ∃ w', up.grows w w' ∧
      up.holds w' (Task.run {} levels (.template template context options) store).2 := by
  have htask : up.diagonal.Tasks w (.template template context options)
      (.template template context options) := .template ⟨rfl, hopens⟩
  have hends := laws.diagonal_lawful.run_alike levels w _ _ htask store store ⟨rfl, hholds⟩
  obtain ⟨w', grown, _, hafter⟩ := hends.stores_alike id
  exact ⟨w', grown, hafter⟩

/-- What depends on the registries and the compilations alone is kept up by a
render if finding a partial keeps it up. -/
theorem of_entries {up : Upkeep Unit} (hopens : ∀ f, up.opens () f → up.frames () f)
    (hcongr : ∀ s t : Store, up.holds () s → s.SameEntries t → up.holds () t)
    (hfinds : ∀ (f : Frame) (s : Store) name outcome after, up.frames () f → up.holds () s →
      f.Finds {} name s (outcome, after) →
      up.holds () after ∧ ∀ t, outcome = .done t → up.opens () ⟨t, f.options.nested⟩) :
    up.Lawful where
  quiet := by
    rintro _ s _ h ⟨_, _, _, _, rfl⟩
    exact hcongr _ _ h ⟨rfl, rfl, rfl, rfl, rfl⟩
  requests := by
    intro _ f s _ h index body data
    obtain ⟨_, hrun⟩ := f.template.requestProgram_run index body data s
    rw [hrun]
    exact hcongr _ _ h ⟨rfl, rfl, rfl, rfl, rfl⟩
  makes h := hcongr _ _ h ⟨rfl, rfl, rfl, rfl, rfl⟩
  finds := by
    intro _ f s name outcome after hframe h hfound
    exact ⟨(), up.grows_refl (), hfinds f s name outcome after hframe h hfound⟩
  enter := by
    intro _ f s hopen h _
    refine ⟨(), hopens f hopen, hcongr _ _ h ⟨rfl, rfl, rfl, rfl, rfl⟩, ?_⟩
    intro _ after _ hafter
    exact ⟨(), up.grows_refl (), hcongr _ _ hafter ⟨rfl, rfl, rfl, rfl, rfl⟩⟩

end Lawful

end Upkeep

end Stencil
