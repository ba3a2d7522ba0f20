import Stencil.Proofs.Requesting
import Stencil.Proofs.Upkeep

/-!
Partials inside partials. Every frame that a render opens is some number of
partials deep, and its options tell that number: they are those of the caller
of the render, nested so many times. A partial that would lie deeper than its
settings allow is refused before anything of it is rendered.
-/

namespace Stencil

namespace RenderOptions

def nestedBy (options : RenderOptions) : Nat → RenderOptions
  | 0 => options
  | n + 1 => (options.nestedBy n).nested

variable (options : RenderOptions) (n : Nat)

@[simp]
theorem nested_depth : options.nested.depth = options.depth + 1 := rfl

theorem nestedBy_depth : (options.nestedBy n).depth = options.depth + n := by
  induction n with
  | zero => rfl
  | succ n ih =>
      have hstep := (options.nestedBy n).nested_depth
      rw [ih] at hstep
      exact hstep

theorem nestedBy_helpers : (options.nestedBy n).helpers = options.helpers := by
  induction n with
  | zero => rfl
  | succ n ih => exact ih

theorem nestedBy_partials : (options.nestedBy n).partials = options.partials := by
  induction n with
  | zero => rfl
  | succ n ih => exact ih

theorem nestedBy_data (h : 0 < n) : (options.nestedBy n).data = none := by
  obtain ⟨m, rfl⟩ : ∃ m, n = m + 1 := ⟨n - 1, by omega⟩
  rfl

end RenderOptions

namespace Frame.Finds

variable {frame : Frame} {reuse : Reuse} {name : String} {store : Store}
  {result : Outcome Template × Store}

/-- Finding a partial opens and leaves no frame. -/
theorem frames_eq (h : frame.Finds reuse name store result) :
    result.2.frames = store.frames ∧ result.2.visits = store.visits := by
  cases h with
  | missing => exact ⟨rfl, rfl⟩
  | compiled => exact ⟨rfl, rfl⟩
  | unavailable => exact ⟨rfl, rfl⟩
  | rejected => exact ⟨rfl, rfl⟩
  | accepted _ _ _ made =>
      cases made
      unfold Store.settled
      split
      · exact ⟨rfl, rfl⟩
      · exact ⟨rfl, rfl⟩

end Frame.Finds

/-- A frame that was opened so many partials deep: the frame around it was
opened too, one partial less deep, and the first one directly inside the frames
that were open before. -/
inductive Visit.Deep (opened : List Visit) (outer : List Frame) : Nat → Visit → Prop
  | root {frame : Frame} (member : ⟨frame, outer⟩ ∈ opened) : Deep opened outer 0 ⟨frame, outer⟩
  | inside {n : Nat} {frame caller : Frame} {callers : List Frame}
      (around : Deep opened outer n ⟨caller, callers⟩)
      (member : ⟨frame, caller :: callers⟩ ∈ opened) :
      Deep opened outer (n + 1) ⟨frame, caller :: callers⟩

namespace Visit

variable {opened : List Visit} {outer : List Frame} {n : Nat} {visit : Visit}

/-- What is known of a frame that was opened so many partials deep in a render
with some options. -/
structure Nested (options : RenderOptions) (n : Nat) (visit : Visit) : Prop where
  depth : visit.frame.options.depth = n
  helpers : visit.frame.options.helpers = options.helpers
  partials : visit.frame.options.partials = options.partials
  data : 0 < n → visit.frame.options.data = none
  bound : n ≤ visit.frame.settings.maxPartialDepth

theorem Deep.member (h : Deep opened outer n visit) : visit ∈ opened := by
  cases h with
  | root member => exact member
  | inside _ member => exact member

theorem Deep.length_eq (h : Deep opened outer n visit) :
    visit.callers.length = n + outer.length := by
  induction h with
  | root _ => simp
  | inside _ _ ih =>
      simp only [List.length_cons] at ih ⊢
      omega

theorem Deep.append (h : Deep opened outer n visit) (more : List Visit) :
    Deep (opened ++ more) outer n visit := by
  induction h with
  | root member => exact .root (List.mem_append_left more member)
  | inside _ member ih => exact .inside ih (List.mem_append_left more member)

end Visit

/-- What holds while frames are open in a render that was begun with a store:
the frames that were opened are nested properly, those that are still open
among them. -/
structure Render.Depths (options : RenderOptions) (start : Store) (stack : List Frame)
    (store : Store) : Prop where
  frames : store.frames = stack ++ start.frames
  opened : ∃ opened, store.visits.toList = start.visits.toList ++ opened ∧
    (∀ visit ∈ opened, ∃ n, visit.Deep opened start.frames n ∧
      visit.frame.options = options.nestedBy n ∧
      visit.frame.options.depth ≤ visit.frame.settings.maxPartialDepth) ∧
    ∀ frame callers, stack = frame :: callers →
      Visit.Deep opened start.frames callers.length ⟨frame, callers ++ start.frames⟩

namespace Render.Depths

variable {options : RenderOptions} {start s t : Store} {stack : List Frame} {frame : Frame}

theorem congr (h : Depths options start stack s) (hframes : t.frames = s.frames)
    (hvisits : t.visits = s.visits) : Depths options start stack t where
  frames := hframes.trans h.frames
  opened := hvisits ▸ h.opened

/-- A frame is opened with the options nested once for each frame around it. -/
theorem enter (h : Depths options start stack s)
    (hoptions : frame.options = options.nestedBy stack.length)
    (hbound : frame.options.depth ≤ frame.settings.maxPartialDepth) :
    Depths options start (frame :: stack) (s.enter frame) := by
  obtain ⟨hframes, opened, hvisits, hnested, hstack⟩ := h
  have hdeep : Visit.Deep (opened ++ [⟨frame, s.frames⟩]) start.frames stack.length
      ⟨frame, stack ++ start.frames⟩ := by
    rw [hframes]
    cases stack with
    | nil => exact .root (List.mem_append_right _ List.mem_cons_self)
    | cons caller callers =>
        have haround :=
          (hstack caller callers rfl).append [⟨frame, caller :: callers ++ start.frames⟩]
        exact .inside haround (List.mem_append_right _ List.mem_cons_self)
  refine ⟨?_, opened ++ [⟨frame, s.frames⟩], ?_, ?_, ?_⟩
  · simp only [Store.enter, hframes, List.cons_append]
  · simp only [Store.enter, Array.toList_push, hvisits, List.append_assoc]
  · intro visit member
    rcases List.mem_append.mp member with hold | hnew
    · obtain ⟨n, hn, hrest⟩ := hnested visit hold
      exact ⟨n, hn.append _, hrest⟩
    · obtain rfl := List.mem_singleton.mp hnew
      rw [hframes] at hdeep ⊢
      exact ⟨stack.length, hdeep, hoptions, hbound⟩
  · rintro _ _ ⟨⟩
    exact hdeep

theorem leave (h : Depths options start (frame :: stack) s) :
    Depths options start stack { s with frames := stack ++ start.frames } := by
  obtain ⟨_, opened, hvisits, hnested, hstack⟩ := h
  refine ⟨rfl, opened, hvisits, hnested, ?_⟩
  rintro caller callers rfl
  have hdeep := hstack frame _ rfl
  cases hdeep with
  | inside around _ => exact around

/-- The depths of the open frames are kept up by a whole render. -/
def upkeep (options : RenderOptions) (start : Store) : Upkeep (List Frame) where
  holds := Depths options start
  frames stack frame :=
    ∃ callers, stack = frame :: callers ∧ frame.options = options.nestedBy callers.length
  opens stack frame := frame.options = options.nestedBy stack.length

theorem upkeep_lawful (options : RenderOptions) (start : Store) :
    (upkeep options start).Lawful where
  quiet := by
    rintro stack s _ h ⟨_, _, _, _, rfl⟩
    exact h.congr rfl rfl
  requests := by
    intro _ frame s _ h index body data
    obtain ⟨_, hrun⟩ := frame.template.requestProgram_run index body data s
    rw [hrun]
    exact h.congr rfl rfl
  makes h := h.congr rfl rfl
  finds := by
    rintro _ frame s name outcome after ⟨callers, rfl, hoptions⟩ h hfinds
    obtain ⟨hframes, hvisits⟩ := hfinds.frames_eq
    refine ⟨_, rfl, h.congr hframes hvisits, fun template _ => ?_⟩
    exact congrArg RenderOptions.nested hoptions
  enter := by
    intro stack frame s hoptions h hbound
    refine ⟨frame :: stack, ⟨stack, rfl, hoptions⟩, h.enter hoptions hbound, ?_⟩
    rintro _ after rfl hafter
    rw [h.frames]
    exact ⟨stack, rfl, hafter.leave⟩

end Render.Depths

/-- Every frame that a render opens is some number of partials deep, and nested
as that number tells. -/
theorem Template.render_nested (template : Template) (levels : Nat) (context : Value)
    (options : RenderOptions) (hroot : options.depth = 0) (store : Store) :
    ∃ opened,
      (Task.run {} levels (.template template context options) store).2.visits.toList =
        store.visits.toList ++ opened ∧
      (∀ visit ∈ opened, ∃ n, visit.Deep opened store.frames n) ∧
      ∀ n (visit : Visit), visit.Deep opened store.frames n → visit.Nested options n := by
  have hstart : Render.Depths options store [] store :=
    ⟨rfl, [], (List.append_nil _).symm, by simp, by simp⟩
  have hlawful := Render.Depths.upkeep_lawful options store
  have hopens : (Render.Depths.upkeep options store).opens [] ⟨template, options⟩ := rfl
  obtain ⟨_, _, hafter⟩ := hlawful.run_holds levels hopens hstart context
  obtain ⟨_, opened, hvisits, hnested, _⟩ := hafter
  refine ⟨opened, hvisits, fun visit member => ?_, fun n visit hdeep => ?_⟩
  · obtain ⟨n, hn, _⟩ := hnested visit member
    exact ⟨n, hn⟩
  · obtain ⟨m, hm, hoptions, hbound⟩ := hnested visit hdeep.member
    -- No frame is so deep twice, for the frames around it tell how deep it is.
    have hlength := hm.length_eq.symm.trans hdeep.length_eq
    obtain rfl : m = n := by omega
    have hdepth : visit.frame.options.depth = m := by
      rw [hoptions, RenderOptions.nestedBy_depth, hroot, Nat.zero_add]
    refine ⟨hdepth, ?_, ?_, ?_, hdepth ▸ hbound⟩
    · rw [hoptions, RenderOptions.nestedBy_helpers]
    · rw [hoptions, RenderOptions.nestedBy_partials]
    · intro hpositive
      rw [hoptions, RenderOptions.nestedBy_data options m hpositive]

def RenderError.tooDeep (depth limit : Nat) : RenderError :=
  .resourceLimit "partial_depth"
    ("Partial nesting depth " ++ Text.numeral depth ++ " exceeds limit of " ++
      Text.numeral limit)

/-- A template that lies too deep is refused with nothing of it rendered,
whatever would carry that out. -/
theorem Template.render_refused (template : Template) (worker : Worker) (context : Value)
    {options : RenderOptions} (store : Store)
    (h : template.environment.settings.maxPartialDepth < options.depth) :
    template.render worker context options store =
      (.failed (.tooDeep options.depth template.environment.settings.maxPartialDepth),
        store.note
          (.depthExceeded options.depth template.environment.settings.maxPartialDepth)) := by
  simp only [Template.render, h, if_true]
  rfl

/-- One that does not lie too deep is rendered inside its frame. -/
theorem Template.render_opened (template : Template) (worker : Worker) (context : Value)
    {options : RenderOptions} (store : Store)
    (h : options.depth ≤ template.environment.settings.maxPartialDepth) :
    template.render worker context options store =
      Render.withFrame ⟨template, options⟩
        (Frame.render ⟨template, options⟩ worker context)
        (store.note (.rendering options.depth)) := by
  have hwithin : ¬ template.environment.settings.maxPartialDepth < options.depth := by omega
  simp only [Template.render, hwithin, if_false]
  rfl

/-- A reference to a partial that would lie too deep is refused: the template is
found, and then nothing happens but the refusal. -/
theorem Frame.invokePartial_refused (frame : Frame) (reuse : Reuse) (levels : Nat) (name : String)
    (context : Value) {store found : Store} {template : Template}
    (hfound : frame.partialTemplate reuse name store = (.done template, found))
    (h : template.environment.settings.maxPartialDepth < frame.options.depth + 1) :
    frame.invokePartial reuse (Task.run reuse (levels + 1)) name context store =
      (.failed (.tooDeep (frame.options.depth + 1) template.environment.settings.maxPartialDepth),
        found.note (.depthExceeded (frame.options.depth + 1)
          template.environment.settings.maxPartialDepth)) := by
  have hdeep : template.environment.settings.maxPartialDepth < frame.options.nested.depth := h
  have hrefused := template.render_refused (Task.run reuse levels) context found hdeep
  unfold Frame.invokePartial
  rw [Render.bind_run, hfound]
  exact hrefused

end Stencil
