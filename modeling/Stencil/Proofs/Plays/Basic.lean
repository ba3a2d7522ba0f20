import Mathlib.Tactic.Choose
import Stencil.Proofs.Keeping
import Stencil.Render.Run

/-!
Levels of a task as exchanges. What a task does by itself, and what it asks of
the worker, is told by a play: it gives a value, it fails, or it asks for the
text of another task and goes on from the answer. A play has nothing to go on
with when the answer is a failure. So what is shown to be a play is shown to do
nothing more after a failure than to pass it on and to close what it opened.
Checks and compilations that fail are noted in the store; that shows that none
of those failures is dropped on the way either.
-/

namespace Stencil

/-- The failure of a page whose reason is another failure. -/
def RenderError.asReason (e : RenderError) : RenderError := .ofPage (some e.message)

theorem Outcome.done_ne_failed {α : Type} (a : α) (e : RenderError) : done a ≠ failed e := by
  intro h
  cases h

/-- An outcome that tells of a failure in another way. -/
def Outcome.mapError {α : Type} (change : RenderError → RenderError) : Outcome α → Outcome α
  | .failed e => .failed (change e)
  | outcome => outcome

/-- What comes of going on from an end. -/
def Render.goOn {α β : Type} (next : α → Render β) : Outcome α × Store → Outcome β × Store
  | (.done a, store) => next a store
  | (.failed e, store) => (.failed e, store)
  | (.exhausted, store) => (.exhausted, store)

theorem Render.bind_goOn {α β : Type} (action : Render α) (next : α → Render β) (store : Store) :
    (action >>= next) store = Render.goOn next (action store) := by
  rw [Render.bind_run]
  rcases action store with ⟨a | e | _, after⟩ <;> rfl

theorem Render.mapError_run {α : Type} (change : RenderError → RenderError) (action : Render α)
    (store : Store) :
    action.mapError change store = ((action store).1.mapError change, (action store).2) := by
  unfold Render.mapError
  rcases action store with ⟨a | e | _, after⟩ <;> rfl

/-- Whether a failure is one of lookups, compilations and checks, and not of a
program or a page. -/
def RenderError.isRuntime : RenderError → Bool
  | .exception _ _ | .configuration => false
  | _ => true

/-- A failure of a page by itself: what it needs is not there, or it was given no
name for a partial. -/
def RenderError.OfPageItself (e : RenderError) : Prop :=
  e = .ofPage none ∨ e = .ofPage (some "partial name missing")

/-- The notes of checks that failed. -/
def Diagnostic.isAlarm : Diagnostic → Bool
  | .depthExceeded _ _ | .outputExceeded _ _ => true
  | _ => false

/-- How many checks and compilations are noted that failed. -/
def Store.alarms (store : Store) : Nat :=
  store.trace.countP Diagnostic.isAlarm + store.compilations.countP (!·.accepted)

/-- How many of those a failure leaves behind. -/
def RenderError.alarms : RenderError → Nat
  | .resourceLimit _ _ | .compilation _ _ => 1
  | _ => 0

/-- One level of a task, from the store where it begins. -/
inductive Play (α : Type) where
  | gives (value : α) (store : Store)
  /-- Something fails here. The level tells of it in some way, and what it had
  opened is closed. -/
  | fails (raised : RenderError) (tells : RenderError → RenderError) (store : Store)
      (closes : Store → Store)
  /-- Asks for a text. If there is none the level ends in the same way. -/
  | asks (task : Task) (store : Store) (tells : RenderError → RenderError)
      (closes : Store → Store) (next : String → Store → Play α)

namespace Play

variable {α β : Type}

/-- How a play ends when a worker answers it. -/
def against (worker : Worker) : Play α → Outcome α × Store
  | gives value store => (.done value, store)
  | fails raised tells store closes => (.failed (tells raised), closes store)
  | asks task store tells closes next =>
    match worker task store with
    | (.done text, after) => (next text after).against worker
    | (.failed e, after) => (.failed (tells e), closes after)
    | (.exhausted, after) => (.exhausted, closes after)

/-- Tells of all failures in another way. -/
def mapError (change : RenderError → RenderError) : Play α → Play α
  | gives value store => gives value store
  | fails raised tells store closes => fails raised (change ∘ tells) store closes
  | asks task store tells closes next =>
    asks task store (change ∘ tells) closes fun text after => (next text after).mapError change

/-- Closes something at the end, however that comes. -/
def closing (change : Store → Store) : Play α → Play α
  | gives value store => gives value (change store)
  | fails raised tells store closes => fails raised tells store (change ∘ closes)
  | asks task store tells closes next =>
    asks task store tells (change ∘ closes) fun text after => (next text after).closing change

theorem against_mapError (change : RenderError → RenderError) (worker : Worker) (play : Play α) :
    (play.mapError change).against worker =
      ((play.against worker).1.mapError change, (play.against worker).2) := by
  induction play with
  | gives value store => rfl
  | fails raised tells store closes => rfl
  | asks task store tells closes next ih =>
      simp only [mapError, against]
      rcases worker task store with ⟨text | e | _, after⟩
      · exact ih text after
      · rfl
      · rfl

theorem against_closing (change : Store → Store) (worker : Worker) (play : Play α) :
    (play.closing change).against worker =
      ((play.against worker).1, change (play.against worker).2) := by
  induction play with
  | gives value store => rfl
  | fails raised tells store closes => rfl
  | asks task store tells closes next ih =>
      simp only [closing, against]
      rcases worker task store with ⟨text | e | _, after⟩
      · exact ih text after
      · rfl
      · rfl

end Play

/-- Options, scenes and tasks in which only what is allowed can run. -/
structure HelperOptions.Keeps (licence : Licence) (options : HelperOptions) : Prop where
  block : ∀ block ∈ options.block, licence.AllowsNodes block.body
  inverse : licence.AllowsNodes options.inverse.body

structure Scene.Keeps (licence : Licence) (scene : Scene) : Prop where
  template : scene.frame.template.Keeps licence
  options : ∀ options ∈ scene.options, options.Keeps licence

inductive Task.Keeps (licence : Licence) : Task → Prop
  | nodes {scene : Scene} {nodes : List Node} (keeps : scene.Keeps licence)
      (allowed : licence.AllowsNodes nodes) : Keeps licence (.nodes scene nodes)
  | template {template : Template} {context : Value} {options : RenderOptions}
      (keeps : template.Keeps licence) : Keeps licence (.template template context options)
  | page {page : Page} {elements : List Source.Element}
      (keeps : page.frame.template.Keeps licence) : Keeps licence (.page page elements)

/-- A store that holds only what is allowed, with so many alarms. -/
structure Store.Calm (licence : Licence) (alarms : Nat) (store : Store) : Prop where
  keeps : store.Keeps licence
  alarms : store.alarms = alarms

/-- A store where the pen and the frames may be others. -/
def Store.Closed (store after : Store) : Prop :=
  ∃ pen frames, after = { store with pen, frames }

namespace Store

variable {licence : Licence} {count : Nat} {store after last : Store}

theorem Closed.refl (store : Store) : store.Closed store := ⟨_, _, rfl⟩

theorem Closed.trans (h : store.Closed after) (hlast : after.Closed last) :
    store.Closed last := by
  obtain ⟨_, _, rfl⟩ := h
  obtain ⟨pen, frames, rfl⟩ := hlast
  exact ⟨pen, frames, rfl⟩

theorem Closed.alarms (h : store.Closed after) : after.alarms = store.alarms := by
  obtain ⟨_, _, rfl⟩ := h
  rfl

theorem Closed.calm (h : store.Closed after) (hstore : store.Calm licence count) :
    after.Calm licence count := by
  refine ⟨?_, h.alarms.trans hstore.alarms⟩
  obtain ⟨_, _, rfl⟩ := h
  exact hstore.keeps.congr rfl rfl rfl

theorem alarms_note (store : Store) (diagnostic : Diagnostic) :
    (store.note diagnostic).alarms = store.alarms + if diagnostic.isAlarm then 1 else 0 := by
  simp only [Store.alarms, note, Array.countP_push]
  omega

theorem alarms_attempted (store : Store) (compilation : Compilation) :
    (store.attempted compilation).alarms =
      store.alarms + if compilation.accepted then 0 else 1 := by
  simp only [Store.alarms, attempted, compiled, note, Array.countP_push, Diagnostic.isAlarm]
  cases compilation.accepted with
  | true => simp
  | false => simp [Nat.add_assoc]

theorem alarms_tally (store : Store) (tally : Tally) :
    (store.tally tally).alarms = store.alarms := by
  simp [Store.alarms, Store.tally, Array.countP_append, Diagnostic.isAlarm]

end Store

/-- A worker that leaves only what is allowed and no alarms, for tasks that do,
unless it fails. -/
def Worker.Keeps (licence : Licence) (worker : Worker) : Prop :=
  ∀ task store, task.Keeps licence → store.Keeps licence →
    (∀ e, (worker task store).1 ≠ .failed e) → (worker task store).2.Calm licence store.alarms

/-- How a level passes failures on: those of the tasks that it asks for, and
those that it raises itself. -/
structure Manner where
  asks : Task → (RenderError → RenderError) → Prop
  fails : RenderError → (RenderError → RenderError) → Prop

/-- Whether a task is a part of a page. -/
def Task.isPage : Task → Bool
  | .page _ _ => true
  | _ => false

/-- Helpers and partials lead to no pages, and pass all failures on as they
are. -/
def Manner.called : Manner where
  asks task tells := task.isPage = false ∧ tells = id
  fails raised tells := raised.isRuntime = true ∧ tells = id

/-- So do nodes, which may also fail by themselves. -/
def Manner.nodes : Manner where
  asks task tells := task.isPage = false ∧ tells = id
  fails _ tells := tells = id

/-- A template may lead to a page, and passes all failures on as they are. -/
def Manner.template : Manner where
  asks _ tells := tells = id
  fails _ tells := tells = id

/-- A page passes its own failures on, and those of its blocks. Any other
failure becomes the reason why the page fails. -/
def Manner.page : Manner where
  asks task tells :=
    task.isPage = true ∧ tells = id ∨ task.isPage = false ∧ tells = RenderError.asReason
  fails raised tells :=
    raised.OfPageItself ∧ tells = id ∨ raised.isRuntime = true ∧ tells = RenderError.asReason

/-- A play in a manner, that asks only for what is allowed and leaves only what
is allowed. The alarms stay as they are, up to the one of its failure. -/
def Play.Follows {α : Type} (licence : Licence) (alarms : Nat) (manner : Manner)
    (values : α → Prop) : Play α → Prop
  | .gives value store => values value ∧ store.Calm licence alarms
  | .fails raised tells store closes =>
    manner.fails raised tells ∧ store.alarms = alarms + raised.alarms ∧
      store.Closed (closes store)
  | .asks task store tells closes next =>
    manner.asks task tells ∧ task.Keeps licence ∧ store.Calm licence alarms ∧
      (∀ after : Store, after.Closed (closes after)) ∧
      ∀ text (after : Store), after.Calm licence alarms →
        (next text after).Follows licence alarms manner values

/-- An action is played if, from every store that keeps to the licence, it is a
play against all workers that do. -/
def Plays {α : Type} (licence : Licence) (manner : Manner) (values : α → Prop)
    (action : Worker → Render α) : Prop :=
  ∀ store : Store, store.Keeps licence →
    ∃ play : Play α, play.Follows licence store.alarms manner values ∧
      ∀ worker : Worker, worker.Keeps licence → action worker store = play.against worker

namespace Plays

variable {licence : Licence} {alarms : Nat} {manner : Manner} {α β : Type} {values : α → Prop}
  {values' : β → Prop}

theorem pure {a : α} (h : values a) : Plays licence manner values fun _ => Pure.pure a :=
  fun store hstore => ⟨.gives a store, ⟨h, hstore, rfl⟩, fun _ _ => rfl⟩

theorem fail {e : RenderError} (h : manner.fails e id) (halarms : e.alarms = 0) :
    Plays licence manner values fun _ => Render.fail e := by
  intro store hstore
  refine ⟨.fails e id store id, ⟨h, ?_, .refl store⟩, fun _ _ => rfl⟩
  rw [halarms, Nat.add_zero]

theorem look {view : Store → α} (h : ∀ store : Store, store.Keeps licence → values (view store)) :
    Plays licence manner values fun _ => Render.look view :=
  fun store hstore => ⟨.gives (view store) store, ⟨h store hstore, hstore, rfl⟩, fun _ _ => rfl⟩

theorem update {change : Store → Store}
    (h : ∀ store : Store, store.Keeps licence → (change store).Calm licence store.alarms) :
    Plays licence manner (fun _ => True) fun _ => Render.update change :=
  fun store hstore =>
    ⟨.gives () (change store), ⟨trivial, h store hstore⟩, fun _ _ => rfl⟩

/-- Asking for a task, and nothing else. -/
theorem ask {task : Task} (htask : task.Keeps licence) (h : manner.asks task id) :
    Plays licence manner (fun _ => True) fun worker => worker task := by
  intro store hstore
  refine ⟨.asks task store id id .gives, ⟨h, htask, ⟨hstore, rfl⟩, ?_, ?_⟩, ?_⟩
  · exact fun after => .refl after
  · exact fun text after hafter => ⟨trivial, hafter⟩
  · intro worker _
    simp only [Play.against]
    rcases worker task store with ⟨text | e | _, after⟩
    · rfl
    · rfl
    · rfl

/-- What goes on from a play, with plays from whatever that gives, is a play. -/
theorem bind {action : Worker → Render α} {next : α → Worker → Render β}
    (h : Plays licence manner values action)
    (hnext : ∀ a, values a → Plays licence manner values' (next a)) :
    Plays licence manner values' fun worker => action worker >>= fun a => next a worker := by
  intro store hstore
  obtain ⟨play, hfollows, hplay⟩ := h store hstore
  suffices hgoes : ∃ whole : Play β, whole.Follows licence store.alarms manner values' ∧
      ∀ worker : Worker, worker.Keeps licence →
        Render.goOn (fun a => next a worker) (play.against worker) = whole.against worker by
    obtain ⟨whole, hwhole, hagainst⟩ := hgoes
    refine ⟨whole, hwhole, fun worker hworker => ?_⟩
    rw [← hagainst worker hworker, ← hplay worker hworker]
    exact Render.bind_goOn _ _ _
  clear hplay hstore
  generalize store.alarms = alarms at hfollows
  induction play with
  | gives value after =>
      obtain ⟨hvalue, hafter, rfl⟩ := hfollows
      obtain ⟨whole, hwhole, hagainst⟩ := hnext value hvalue after hafter
      exact ⟨whole, hwhole, fun worker hworker => hagainst worker hworker⟩
  | fails raised tells after closes =>
      exact ⟨.fails raised tells after closes, hfollows, fun _ _ => rfl⟩
  | asks task before tells closes rest ih =>
      obtain ⟨hasks, htask, hbefore, hcloses, hrest⟩ := hfollows
      -- The rest of the play exists for the answers that keep to the licence.
      have hwhole : ∀ text (after : Store), ∃ whole : Play β, after.Calm licence alarms →
          whole.Follows licence alarms manner values' ∧
          ∀ worker : Worker, worker.Keeps licence →
            Render.goOn (fun a => next a worker) ((rest text after).against worker) =
              whole.against worker := by
        intro text after
        by_cases hafter : after.Calm licence alarms
        · obtain ⟨whole, hwhole⟩ := ih text after (hrest text after hafter)
          exact ⟨whole, fun _ => hwhole⟩
        · exact ⟨.fails .configuration id after id, fun hcalm => absurd hcalm hafter⟩
      choose whole hwhole using hwhole
      refine ⟨.asks task before tells closes whole, ⟨hasks, htask, hbefore, hcloses, ?_⟩, ?_⟩
      · exact fun text after hafter => (hwhole text after hafter).1
      · intro worker hworker
        have hcalm := hworker task before htask hbefore.keeps
        simp only [Play.against]
        generalize worker task before = x at hcalm
        rcases x with ⟨text | e | _, after⟩
        · have hafter : after.Calm licence alarms :=
            hbefore.alarms ▸ hcalm (Outcome.done_ne_failed text)
          exact (hwhole text after hafter).2 worker hworker
        · rfl
        · rfl

theorem map {action : Worker → Render α} (f : α → β) (h : Plays licence manner values action)
    (hvalues : ∀ a, values a → values' (f a)) :
    Plays licence manner values' fun worker => f <$> action worker :=
  h.bind fun a ha => pure (hvalues a ha)

theorem closing {action : Worker → Render α} {store : Store} {change : Store → Store}
    {play : Play α} (hfollows : play.Follows licence alarms manner values)
    (hplay : ∀ worker : Worker, worker.Keeps licence → action worker store = play.against worker)
    (hchange : ∀ after : Store, after.Closed (change after)) :
    (play.closing change).Follows licence alarms manner values ∧
      ∀ worker : Worker, worker.Keeps licence →
        ((action worker store).1, change (action worker store).2) =
          (play.closing change).against worker := by
  refine ⟨?_, fun worker hworker => ?_⟩
  · clear hplay
    induction play with
    | gives value store => exact ⟨hfollows.1, (hchange store).calm hfollows.2⟩
    | fails raised tells store closes =>
        exact ⟨hfollows.1, hfollows.2.1, hfollows.2.2.trans (hchange _)⟩
    | asks task store tells closes next ih =>
        obtain ⟨hasks, htask, hat, hcloses, hnext⟩ := hfollows
        exact ⟨hasks, htask, hat, fun after => (hcloses after).trans (hchange _),
          fun text after hafter => ih text after (hnext text after hafter)⟩
  · rw [Play.against_closing, hplay worker hworker]

theorem withPen {action : Worker → Render α} (h : Plays licence manner values action) :
    Plays licence manner values fun worker => (action worker).withPen := by
  intro store hstore
  obtain ⟨play, hfollows, hplay⟩ := h { store with pen := {} } (hstore.congr rfl rfl rfl)
  have hchange : ∀ after : Store, after.Closed { after with pen := store.pen } :=
    fun after => ⟨_, _, rfl⟩
  exact ⟨_, closing hfollows hplay hchange⟩

theorem withFrame (frame : Frame) {action : Worker → Render α}
    (h : Plays licence manner values action) :
    Plays licence manner values fun worker => (action worker).withFrame frame := by
  intro store hstore
  obtain ⟨play, hfollows, hplay⟩ := h (store.enter frame) (hstore.congr rfl rfl rfl)
  have hchange : ∀ after : Store, after.Closed { after with frames := store.frames } :=
    fun after => ⟨_, _, rfl⟩
  exact ⟨_, closing hfollows hplay hchange⟩

/-- What fails outside a page is the reason why the page fails. -/
theorem outside {action : Worker → Render α} (h : Plays licence .called values action) :
    Plays licence .page values fun worker => Page.outside (action worker) := by
  intro store hstore
  obtain ⟨play, hfollows, hplay⟩ := h store hstore
  refine ⟨play.mapError .asReason, ?_, fun worker hworker => ?_⟩
  · clear hplay
    generalize store.alarms = alarms at hfollows ⊢
    induction play with
    | gives value store => exact hfollows
    | fails raised tells store closes =>
        obtain ⟨⟨hraised, rfl⟩, hat⟩ := hfollows
        exact ⟨.inr ⟨hraised, rfl⟩, hat⟩
    | asks task store tells closes next ih =>
        obtain ⟨⟨hpage, rfl⟩, htask, hat, hcloses, hnext⟩ := hfollows
        exact ⟨.inr ⟨hpage, rfl⟩, htask, hat, hcloses,
          fun text after hafter => ih text after (hnext text after hafter)⟩
  · rw [Play.against_mapError, ← hplay worker hworker]
    exact Render.mapError_run _ _ _

theorem concat {action : β → Worker → Render String} (items : List β)
    (h : ∀ item ∈ items, Plays licence manner (fun _ => True) (action item)) :
    Plays licence manner (fun _ => True) fun worker =>
      Render.concat (fun item => action item worker) items := by
  induction items with
  | nil => exact pure trivial
  | cons item rest ih =>
      simp only [Render.concat_cons]
      refine (h item List.mem_cons_self).bind fun text _ => ?_
      exact map (text ++ ·) (ih fun other member => h other (List.mem_cons_of_mem _ member))
        fun _ _ => trivial

theorem mapM {action : β → Worker → Render α} (items : List β)
    (h : ∀ item ∈ items, Plays licence manner (fun _ => True) (action item)) :
    Plays licence manner (fun _ => True) fun worker =>
      items.mapM fun item => action item worker := by
  induction items with
  | nil => exact pure trivial
  | cons item rest ih =>
      simp only [List.mapM_cons]
      refine (h item List.mem_cons_self).bind fun a _ => ?_
      refine (ih fun other member => h other (List.mem_cons_of_mem _ member)).bind fun as _ => ?_
      exact pure trivial

/-- What asks for nothing gives a value or fails, and leaves only what is
allowed. -/
theorem alone {action : Render α}
    (h : ∀ store : Store, store.Keeps licence → ∃ outcome after,
      action store = (outcome, after) ∧ outcome ≠ .exhausted ∧
      (∀ a, outcome = .done a → values a ∧ after.Calm licence store.alarms) ∧
      ∀ e, outcome = .failed e → manner.fails e id ∧ after.alarms = store.alarms + e.alarms) :
    Plays licence manner values fun _ => action := by
  intro store hstore
  obtain ⟨outcome, after, hrun, hends, hdone, hfailed⟩ := h store hstore
  cases outcome with
  | done a => exact ⟨.gives a after, hdone a rfl, fun _ _ => hrun⟩
  | failed e =>
      obtain ⟨hfails, halarms⟩ := hfailed e rfl
      exact ⟨.fails e id after id, ⟨hfails, halarms, .refl after⟩, fun _ _ => hrun⟩
  | exhausted => exact absurd rfl hends

end Plays

end Stencil
