import Stencil.Proofs.Plays.Nodes
import Stencil.Proofs.Plays.Pages

/-!
Courses of renders, and the first failure in them. The course of a render is
the order in which its tasks begin and end, and where something fails. Every
level of it is a play, and a play ends with the first failure that it meets. So
after the first failure of a course nothing begins: the tasks that are open end
one after another, the innermost first, and each one passes the failure on.
-/

namespace Stencil

/-- What a program may do that handles no failures. -/
def Licence.unhandled : Licence := { Licence.free with handles := False }

variable {licence : Licence}

theorem Frame.render_plays {frame : Frame} (hframe : frame.template.Keeps licence)
    (context : Value) :
    Plays licence .template (fun _ => True) fun worker => frame.render worker context := by
  unfold Frame.render
  have hspec := hframe.spec
  generalize frame.template.spec = spec at hspec
  cases spec with
  | nodes nodes => exact .ask (.nodes ⟨hframe, fun _ hnone => nomatch hnone⟩ hspec) rfl
  | page elements => exact Page.render_plays hframe elements context

theorem Template.render_plays {template : Template} (htemplate : template.Keeps licence)
    (context : Value) (options : RenderOptions) :
    Plays licence .template (fun _ => True)
      fun worker => template.render worker context options := by
  unfold Template.render
  by_cases hexceeds : template.environment.settings.maxPartialDepth < options.depth
  · simp only [hexceeds, if_true]
    exact .refuse rfl rfl rfl
  · simp only [hexceeds, if_false]
    refine (Plays.note rfl).bind fun _ _ => .withFrame _ ?_
    have hframe : (⟨template, options⟩ : Frame).template.Keeps licence := htemplate
    exact Frame.render_plays hframe context

namespace Task

/-- How a task passes failures on. -/
def manner : Task → Manner
  | .nodes _ _ => .nodes
  | .template _ _ _ => .template
  | .page _ _ => .page

/-- What a task passes on when a task that it leads to fails: a page takes a
failure from outside as its reason. -/
def told (outer inner : Task) (e : RenderError) : RenderError :=
  if outer.isPage && !inner.isPage then e.asReason else e

/-- What a task passes on when something fails in itself: a page takes a failure
for its reason, unless it is one of its own. -/
def Raises (task : Task) (raised e : RenderError) : Prop :=
  e = raised ∧ (task.isPage = true → raised.OfPageItself) ∨
    task.isPage = true ∧ raised.isRuntime = true ∧ e = raised.asReason

end Task

namespace Play

variable {α : Type} {manner : Manner} {values : α → Prop}

end Play

/-- What happens in the course of a render. -/
inductive Event where
  | begins (task : Task)
  | gives (task : Task)
  /-- Something fails that is no task: a lookup, a compilation, a check, or what
  a program or a page does by itself. -/
  | raises (e : RenderError) (store : Store)
  | fails (task : Task) (e : RenderError)
  /-- No levels are left for the task. -/
  | stops (task : Task)

namespace Event

def isFailure : Event → Bool
  | .raises _ _ | .fails _ _ => true
  | _ => false

/-- How a task ends. -/
def ends (task : Task) : Outcome String → Event
  | .done _ => .gives task
  | .failed e => .fails task e
  | .exhausted => .stops task

/-- The tasks that are open after some events, the innermost first. -/
def opened : List Task → List Event → List Task
  | stack, [] => stack
  | stack, .begins task :: rest => opened (task :: stack) rest
  | stack, .raises _ _ :: rest => opened stack rest
  | stack, .gives _ :: rest | stack, .fails _ _ :: rest | stack, .stops _ :: rest =>
    opened stack.tail rest

end Event

/-- How a failure was passed on to a task, by which tasks and in which form. -/
inductive Unwinds (raised : RenderError) : Task → RenderError → List (Task × RenderError) → Prop
  | own {task : Task} {e : RenderError} (raises : task.Raises raised e) :
      Unwinds raised task e [(task, e)]
  | through {inner : Task} {e : RenderError} {list : List (Task × RenderError)} (outer : Task)
      (rest : Unwinds raised inner e list) :
      Unwinds raised outer (outer.told inner e) (list ++ [(outer, outer.told inner e)])

namespace Unwinds

variable {raised told : RenderError} {task : Task} {list : List (Task × RenderError)}

theorem ne_nil (h : Unwinds raised task told list) : list ≠ [] := by
  cases h with
  | own raises => exact List.cons_ne_nil _ _
  | through outer rest => exact List.append_ne_nil_of_right_ne_nil _ (List.cons_ne_nil _ _)

theorem mem (h : Unwinds raised task told list) : (task, told) ∈ list := by
  cases h with
  | own raises => exact List.mem_cons_self
  | through outer rest => exact List.mem_append_right _ List.mem_cons_self

/-- Without a page around it a failure stays what it is. -/
theorem unchanged (h : Unwinds raised task told list)
    (hpages : ∀ entry ∈ list, entry.1.isPage = false) : told = raised := by
  induction h with
  | @own task e raises =>
      have hpage := hpages _ List.mem_cons_self
      rcases raises with ⟨hsame, _⟩ | ⟨hother, _⟩
      · exact hsame
      · exact absurd (hother.symm.trans hpage) (by decide)
  | through outer rest ih =>
      have hpage := hpages _ (List.mem_append_right _ List.mem_cons_self)
      have hinner := ih fun entry member => hpages entry (List.mem_append_left _ member)
      simp only [Task.told, hpage, Bool.false_and, Bool.false_eq_true, if_false]
      exact hinner

/-- The innermost page around a failure takes it for its reason, or has failed
by itself; and the failure of a page it stays. -/
theorem reason (h : Unwinds raised task told list) {inner outer : List (Task × RenderError)}
    {page : Task} {e : RenderError} (hlist : list = inner ++ (page, e) :: outer)
    (hpage : page.isPage = true) (hinner : ∀ entry ∈ inner, entry.1.isPage = false) :
    (∃ last, told = .ofPage last) ∧ ∃ reason, e = .ofPage reason ∧
      (inner ≠ [] → reason = some raised.message) ∧
      (inner = [] → raised.OfPageItself ∧ raised = .ofPage reason ∨
        raised.isRuntime = true ∧ reason = some raised.message) := by
  induction h generalizing inner outer page e with
  | own raises =>
      cases inner with
      | cons first rest => simp at hlist
      | nil =>
          obtain ⟨⟨rfl, rfl⟩, rfl⟩ : _ ∧ _ := by simpa using hlist
          rcases raises with ⟨hsame, hown⟩ | ⟨_, hruntime, rfl⟩
          · have hitself := hown hpage
            obtain ⟨reason, hreason⟩ : ∃ reason, raised = .ofPage reason :=
              hitself.elim (fun h => ⟨_, h⟩) fun h => ⟨_, h⟩
            have hfails := hsame.trans hreason
            exact ⟨⟨reason, hfails⟩, reason, hfails, fun h => absurd rfl h,
              fun _ => .inl ⟨hitself, hreason⟩⟩
          · exact ⟨⟨_, rfl⟩, _, rfl, fun h => absurd rfl h, fun _ => .inr ⟨hruntime, rfl⟩⟩
  | @through last told list task rest ih =>
      rcases List.eq_nil_or_concat outer with rfl | ⟨outer, entry, rfl⟩
      · -- The outermost task is the page, and all tasks inside it are none.
        obtain ⟨rfl, hentry⟩ := List.append_inj' hlist rfl
        obtain ⟨rfl, rfl⟩ : _ ∧ _ := by simpa using hentry
        have hlast := hinner _ rest.mem
        have hsame := rest.unchanged hinner
        have htold : task.told last told = raised.asReason := by
          simp [Task.told, hpage, hlast, hsame]
        exact ⟨⟨_, htold⟩, _, htold, fun _ => rfl, fun h => absurd h rest.ne_nil⟩
      · have hinit : list = inner ++ (page, e) :: outer := by
          rw [List.concat_eq_append, ← List.cons_append, ← List.append_assoc] at hlist
          exact (List.append_inj' hlist rfl).1
        obtain ⟨⟨reason, hreason⟩, hrest⟩ := ih hinit hpage hinner
        refine ⟨?_, hrest⟩
        unfold Task.told
        split
        · exact ⟨_, rfl⟩
        · exact ⟨reason, hreason⟩

end Unwinds

/-- The events of tasks that pass a failure on. -/
def Event.failures (list : List (Task × RenderError)) : List Event :=
  list.map fun entry => .fails entry.1 entry.2

/-- What a level records: nothing fails in it if it does not, and else there is
a first failure, which it passes on after the tasks that are open inside it. -/
def Recorded {α : Type} (alarms : Nat) (task : Task) (log : List Event) :
    Outcome α × Store → Prop
  | (.done _, _) => (∀ event ∈ log, event.isFailure = false) ∧
    ∀ stack, Event.opened stack log = stack
  | (.exhausted, _) => ∀ event ∈ log, event.isFailure = false
  | (.failed told, after) => ∃ before raised found inside,
    log = before ++ .raises raised found :: Event.failures inside ∧
    (∀ event ∈ before, event.isFailure = false) ∧
    (∀ stack, Event.opened stack before = inside.map Prod.fst ++ stack) ∧
    found.alarms = alarms + raised.alarms ∧ found.Closed after ∧
    Unwinds raised task told (inside ++ [(task, told)])

/-- The log of a task, from its beginning to its end. -/
def Event.around (task : Task) (outcome : Outcome String) (inner : List Event) : List Event :=
  .begins task :: inner ++ [.ends task outcome]

theorem Event.around_quiet {task : Task} {outcome : Outcome String} {log : List Event}
    (hlog : ∀ event ∈ log, event.isFailure = false)
    (hends : (Event.ends task outcome).isFailure = false) :
    ∀ event ∈ Event.around task outcome log, event.isFailure = false := by
  intro event member
  simp only [around, List.cons_append, List.mem_cons, List.mem_append, List.not_mem_nil,
    or_false] at member
  rcases member with rfl | member | rfl
  · rfl
  · exact hlog event member
  · exact hends

namespace Recorded

variable {α : Type} {alarms : Nat} {outer task : Task} {log more : List Event}
  {result : Outcome α × Store} {after last : Store} {text : String} {e : RenderError}

/-- The failure of a task, as seen from outside. -/
theorem failed (h : Recorded alarms task log ((.failed e, after) : Outcome String × Store)) :
    ∃ before raised found enclosing,
      Event.around task (.failed e) log =
        before ++ .raises raised found :: Event.failures enclosing ∧
      (∀ event ∈ before, event.isFailure = false) ∧
      (∀ stack, Event.opened stack before = enclosing.map Prod.fst ++ stack) ∧
      found.alarms = alarms + raised.alarms ∧ found.Closed after ∧
      Unwinds raised task e enclosing := by
  obtain ⟨before, raised, found, inside, rfl, hbefore, hopen, halarms, hclosed, hunwinds⟩ := h
  refine ⟨.begins task :: before, raised, found, inside ++ [(task, e)], ?_, ?_, ?_, halarms,
    hclosed, hunwinds⟩
  · simp [Event.around, Event.failures, Event.ends]
  · intro event member
    rcases List.mem_cons.mp member with rfl | member
    · rfl
    · exact hbefore event member
  · intro stack
    simp only [Event.opened, hopen, List.map_append, List.map_cons, List.map_nil,
      List.append_assoc, List.cons_append, List.nil_append]

theorem stopped (h : Recorded alarms task log ((.exhausted, after) : Outcome String × Store)) :
    Recorded alarms outer (Event.around task .exhausted log)
      ((.exhausted, last) : Outcome α × Store) :=
  Event.around_quiet h rfl

end Recorded

namespace Crowded

def environment : Environment := ⟨0, 0, ⟨.asymmetric, 9, some 1⟩, some .pages, .standard⟩

/-- A template that goes on after a partial. -/
def template : Template :=
  ⟨0, environment, .nodes [.text "<", .inclusion "list" (.this none), .text ">"],
    ⟨0, [], none, []⟩⟩

/-- A helper that iterates, and goes on after that. -/
def items : Helper :=
  ⟨.nodes [.call "each" (.this none)
      (.mk false (some (.cached 0 [.escaped (.this none)] none)) none none false),
    .text "."], none⟩

/-- The partial is a page that calls the helper, and goes on after that. -/
def store : Store :=
  ((Store.empty.registerHelper 0 "each" ⟨.builtin .each, none⟩).registerHelper 0 "items"
    items).registerPartial 0 "list" (.source "\x7b\x7bitems\x7d\x7d!")

def reason : String :=
  "Resource limit exceeded: output_size - Block output 2 bytes exceeds limit of 1 bytes"

def context : Value := .array [.string "a", .string "b", .string "c"]

theorem template_keeps : template.Keeps .unhandled :=
  ⟨⟨trivial, trivial, trivial, trivial⟩, trivial, Compiler.pages_offers rfl⟩

theorem store_keeps : store.Keeps .unhandled := by
  have heach : Licence.unhandled.AllowsHelper ⟨.builtin .each, none⟩ :=
    ⟨trivial, fun _ hnone => nomatch hnone⟩
  have hitems : Licence.unhandled.AllowsHelper items := by
    refine ⟨?_, fun _ hnone => nomatch hnone⟩
    simp [items, Licence.AllowsAction, Licence.AllowsNodes, Licence.AllowsNode, Licence.AllowsExpr,
      Licence.AllowsOptions, Licence.AllowsProgram?, Licence.AllowsProgram, Licence.AllowsExpr?,
      Licence.unhandled, Licence.free]
  have hhelpers := (Store.Keeps.empty .unhandled).registerHelper heach 0 "each"
  exact (hhelpers.registerHelper hitems 0 "items").registerSource 0 "list" _

/-- The second item is too much. -/
theorem fails : (Task.run {} 9 (.template template context {}) store).1 =
    .failed (.ofPage (some reason)) := by
  decide +kernel

theorem alarms : (Task.run {} 9 (.template template context {}) store).2.alarms = 1 := by
  decide +kernel

end Crowded

end Stencil
