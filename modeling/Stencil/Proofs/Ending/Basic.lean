import Stencil.Proofs.Chain

/-!
Actions that end. With enough levels such an action gives a value or fails, and
then no greater number of levels makes a difference. It is begun in a store of
which something holds, and that holds again at its end, so that actions that end
one after another end as a whole.
-/

namespace Stencil

/-- An outcome other than that the levels were too few, with a value of a kind
if there is one. -/
def Outcome.Gives {α : Type} (values : α → Prop) : Outcome α → Prop
  | .done a => values a
  | .failed _ => True
  | .exhausted => False

/-- With enough levels an action gives a value of a kind or fails, and what held
of the store holds again. -/
def Ending {α : Type} (reuse : Reuse) (holds : Store → Prop) (values : α → Prop)
    (action : Worker → Render α) : Prop :=
  ∀ store, holds store → ∃ outcome after,
    Render.EndsIn (fun levels => action (Task.run reuse levels)) store (outcome, after) ∧
      outcome.Gives values ∧ holds after

namespace Ending

variable {reuse : Reuse} {holds : Store → Prop} {α β : Type} {values : α → Prop}
  {values' : β → Prop} {action : Worker → Render α}

/-- What asks the worker for nothing ends at once. -/
theorem alone {action : Render α}
    (h : ∀ store, holds store → (action store).1.Gives values ∧ holds (action store).2) :
    Ending reuse holds values fun _ => action := by
  intro store hstore
  obtain ⟨hgives, hafter⟩ := h store hstore
  exact ⟨_, _, .always fun _ => rfl, hgives, hafter⟩

theorem pure {a : α} (h : values a) : Ending reuse holds values fun _ => Pure.pure a :=
  alone fun _ hstore => ⟨h, hstore⟩

theorem fail (e : RenderError) : Ending reuse holds values fun _ => Render.fail e :=
  alone fun _ hstore => ⟨trivial, hstore⟩

theorem look {view : Store → α} (h : ∀ store, holds store → values (view store)) :
    Ending reuse holds values fun _ => Render.look view :=
  alone fun store hstore => ⟨h store hstore, hstore⟩

theorem update {change : Store → Store} (h : ∀ store, holds store → holds (change store)) :
    Ending reuse holds (fun _ => True) fun _ => Render.update change :=
  alone fun store hstore => ⟨trivial, h store hstore⟩

theorem ofOption (e : RenderError) (found : Option α) (h : ∀ a, found = some a → values a) :
    Ending reuse holds values fun _ => Render.ofOption e found := by
  cases found with
  | none => exact fail e
  | some a => exact pure (h a rfl)

/-- What goes on from a value that an action gives ends if it ends for each. -/
theorem bind {next : α → Worker → Render β} (h : Ending reuse holds values action)
    (hnext : ∀ a, values a → Ending reuse holds values' (next a)) :
    Ending reuse holds values' fun worker => action worker >>= fun a => next a worker := by
  intro store hstore
  obtain ⟨outcome, after, hends, hgives, hafter⟩ := h store hstore
  cases outcome with
  | done a =>
      obtain ⟨outcome', last, hends', hgives', hlast⟩ := hnext a hgives after hafter
      exact ⟨outcome', last, hends.bind hends', hgives', hlast⟩
  | failed e => exact ⟨.failed e, after, hends.bind_failed, trivial, hafter⟩
  | exhausted => exact hgives.elim

theorem map (f : α → β) (h : Ending reuse holds values action)
    (hmap : ∀ a, values a → values' (f a)) :
    Ending reuse holds values' fun worker => f <$> action worker :=
  h.bind fun a ha => pure (hmap a ha)

theorem mapError (change : RenderError → RenderError) (h : Ending reuse holds values action) :
    Ending reuse holds values fun worker => (action worker).mapError change := by
  intro store hstore
  obtain ⟨outcome, after, ⟨least, hleast⟩, hgives, hafter⟩ := h store hstore
  cases outcome with
  | done a =>
      refine ⟨.done a, after, ⟨least, fun levels hlevels => ?_⟩, hgives, hafter⟩
      simp only [Render.mapError, hleast levels hlevels]
  | failed e =>
      refine ⟨.failed (change e), after, ⟨least, fun levels hlevels => ?_⟩, trivial, hafter⟩
      simp only [Render.mapError, hleast levels hlevels]
  | exhausted => exact hgives.elim

theorem recover {handle : RenderError → α} (h : Ending reuse holds (fun _ => True) action) :
    Ending reuse holds (fun _ => True) fun worker => (action worker).recover handle := by
  intro store hstore
  obtain ⟨outcome, after, ⟨least, hleast⟩, hgives, hafter⟩ := h store hstore
  cases outcome with
  | done a =>
      refine ⟨.done a, after, ⟨least, fun levels hlevels => ?_⟩, trivial, hafter⟩
      simp only [Render.recover, hleast levels hlevels]
  | failed e =>
      refine ⟨.done (handle e), after, ⟨least, fun levels hlevels => ?_⟩, trivial, hafter⟩
      simp only [Render.recover, hleast levels hlevels]
  | exhausted => exact hgives.elim

theorem concat {action : β → Worker → Render String} (items : List β)
    (h : ∀ item ∈ items, Ending reuse holds (fun _ => True) (action item)) :
    Ending reuse holds (fun _ => True) fun worker =>
      Render.concat (fun item => action item worker) items := by
  induction items with
  | nil => exact pure trivial
  | cons item rest ih =>
      simp only [Render.concat_cons]
      apply (h item List.mem_cons_self).bind
      intro text _
      have hrest := ih fun other member => h other (List.mem_cons_of_mem item member)
      exact hrest.map (text ++ ·) fun _ _ => trivial

theorem mapM {action : β → Worker → Render α} (items : List β)
    (h : ∀ item ∈ items, Ending reuse holds (fun _ => True) (action item)) :
    Ending reuse holds (fun _ => True) fun worker =>
      items.mapM fun item => action item worker := by
  induction items with
  | nil => exact pure trivial
  | cons item rest ih =>
      simp only [List.mapM_cons]
      apply (h item List.mem_cons_self).bind
      intro a _
      apply (ih fun other member => h other (List.mem_cons_of_mem item member)).bind
      exact fun as _ => pure trivial

/-- A task ends if its first level does. -/
theorem task {task : Task}
    (h : Ending reuse holds (fun _ => True) fun worker => Task.step reuse worker task) :
    Ending reuse holds (fun _ => True) fun worker => worker task := by
  intro store hstore
  obtain ⟨outcome, after, hends, hgives, hafter⟩ := h store hstore
  exact ⟨outcome, after, hends.step, hgives, hafter⟩

theorem withFrame {frame : Frame} (h : Ending reuse holds values action)
    (henter : ∀ store, holds store → holds (store.enter frame))
    (hleave : ∀ store frames, holds store → holds { store with frames }) :
    Ending reuse holds values fun worker => (action worker).withFrame frame := by
  intro store hstore
  obtain ⟨outcome, after, hends, hgives, hafter⟩ := h _ (henter store hstore)
  exact ⟨outcome, _, hends.withFrame, hgives, hleave after _ hafter⟩

section

variable (hquiet : ∀ s t, holds s → s.Quiet t → holds t)

include hquiet

theorem note (diagnostic : Diagnostic) :
    Ending reuse holds (fun _ => True) fun _ => Render.note diagnostic :=
  update fun store hstore => hquiet _ _ hstore (store.note_quiet diagnostic)

theorem tally (tally : Tally) :
    Ending reuse holds (fun _ => True) fun _ => Render.update (·.tally tally) :=
  update fun store hstore => hquiet _ _ hstore (store.tally_quiet tally)

/-- A deferred value is resolved after finitely many evaluations. -/
theorem resolve (v : Value) :
    Ending reuse holds (fun _ => True) fun _ => Render.resolve v :=
  (tally hquiet v.resolve.tally).bind fun _ _ => pure trivial

theorem withPen (h : Ending reuse holds values action) :
    Ending reuse holds values fun worker => (action worker).withPen := by
  intro store hstore
  have hbegun := hquiet _ _ hstore (store.pen_quiet {})
  obtain ⟨outcome, after, ⟨least, hleast⟩, hgives, hafter⟩ := h _ hbegun
  have hlast := hquiet _ _ hafter (after.pen_quiet store.pen)
  refine ⟨outcome, _, ⟨least, fun levels hlevels => ?_⟩, hgives, hlast⟩
  simp only [Render.withPen, hleast levels hlevels]

end

end Ending

end Stencil
