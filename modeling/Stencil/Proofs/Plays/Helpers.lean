import Stencil.Proofs.Plays.Basic

/-!
Plays of helpers and of partials. A helper asks for the block or the
alternative that it was called with, for its own nodes, or for nothing; an
iteration asks for its block again and again, and holds the text against the
bound in between. None of them has anything to do after a failure.
-/

namespace Stencil

variable {licence : Licence} {frame : Frame} {options : HelperOptions}

namespace Plays

theorem note {manner : Manner} {diagnostic : Diagnostic} (h : diagnostic.isAlarm = false) :
    Plays licence manner (fun _ => True) fun _ => Render.note diagnostic := by
  refine update fun store hstore => ⟨hstore.congr rfl rfl rfl, ?_⟩
  simp [Store.alarms_note, h]

/-- A check that fails is noted, and is the failure that ends the level. -/
theorem refuse {manner : Manner} {values : α → Prop} {diagnostic : Diagnostic} {e : RenderError}
    (h : manner.fails e id) (halarm : diagnostic.isAlarm = true) (halarms : e.alarms = 1) :
    Plays licence manner values fun _ => Render.note diagnostic >>= fun _ => Render.fail e := by
  intro store hstore
  refine ⟨.fails e id (store.note diagnostic) id, ⟨h, ?_, .refl _⟩, fun _ _ => rfl⟩
  simp [Store.alarms_note, halarm, halarms]

theorem tally {manner : Manner} (tally : Tally) :
    Plays licence manner (fun _ => True) fun _ => Render.update (·.tally tally) :=
  update fun store hstore => ⟨hstore.congr rfl rfl rfl, store.alarms_tally tally⟩

theorem resolve (v : Value) :
    Plays licence .called (fun _ => True) fun _ => Render.resolve v :=
  (tally v.resolve.tally).bind fun _ _ => pure trivial

theorem nodes {scene : Scene} {list : List Node} (hscene : scene.Keeps licence)
    (hallowed : licence.AllowsNodes list) :
    Plays licence .called (fun _ => True) fun worker => worker (.nodes scene list) :=
  ask (.nodes hscene hallowed) ⟨rfl, rfl⟩

end Plays

theorem Program.render_plays (hframe : frame.template.Keeps licence) {program : Program}
    (hallowed : licence.AllowsNodes program.body) (context : Value) (data : Option Value) :
    Plays licence .called (fun _ => True) fun worker => program.render worker frame context data :=
  .nodes ⟨hframe, fun _ hnone => nomatch hnone⟩ hallowed

namespace HelperOptions

theorem renderBlock_plays (hframe : frame.template.Keeps licence) (hoptions : options.Keeps licence)
    (context : Value) :
    Plays licence .called (fun _ => True)
      fun worker => options.renderBlock worker frame context := by
  obtain ⟨block, inverse, data⟩ := options
  cases block with
  | none => exact .pure trivial
  | some block => exact Program.render_plays hframe (hoptions.block block rfl) context none

theorem renderInverse_plays (hframe : frame.template.Keeps licence)
    (hoptions : options.Keeps licence) (context : Value) :
    Plays licence .called (fun _ => True)
      fun worker => options.renderInverse worker frame context :=
  Program.render_plays hframe hoptions.inverse context none

theorem ofFrame_keeps (hframe : frame.template.Keeps licence) : (ofFrame frame).Keeps licence :=
  ⟨fun _ hnone => (nomatch hnone), hframe.noop⟩

theorem swapped_keeps (hframe : frame.template.Keeps licence) (hoptions : options.Keeps licence) :
    (options.swapped frame).Keeps licence where
  block := by
    rintro _ ⟨⟩
    exact hoptions.inverse
  inverse := by
    obtain ⟨block, inverse, data⟩ := options
    cases block with
    | none => exact hframe.noop
    | some block => exact hoptions.block block rfl

end HelperOptions

namespace Frame

theorem checkOutput_plays (frame : Frame) (size : Nat) :
    Plays licence .called (fun _ => True) fun _ => frame.checkOutput size := by
  unfold checkOutput
  cases frame.settings.maxOutputBytes with
  | none => exact .pure trivial
  | some limit =>
      by_cases hexceeds : limit < size
      · simp only [hexceeds, if_true]
        exact .refuse ⟨rfl, rfl⟩ rfl rfl
      · simp only [hexceeds, if_false]
        exact .pure trivial

theorem resolveMissingValue_plays (frame : Frame) (name : String) :
    Plays licence .called (fun _ => True) fun _ => frame.resolveMissingValue name := by
  unfold resolveMissingValue
  cases frame.settings.missing with
  | asymmetric => exact .fail ⟨rfl, rfl⟩ rfl
  | fail => exact .fail ⟨rfl, rfl⟩ rfl
  | empty => exact .pure trivial

theorem resolveMissingBlock_plays (frame : Frame) (name : String) :
    Plays licence .called (fun _ => True) fun _ => frame.resolveMissingBlock name := by
  unfold resolveMissingBlock
  cases frame.settings.missing with
  | asymmetric => exact (Plays.note rfl).bind fun _ _ => .pure trivial
  | fail => exact .fail ⟨rfl, rfl⟩ rfl
  | empty => exact (Plays.note rfl).bind fun _ _ => .pure trivial

theorem resolveMissing_plays (frame : Frame) (name : String) (options : HelperOptions) :
    Plays licence .called (fun _ => True) fun _ => frame.resolveMissing name options := by
  unfold resolveMissing
  split
  · exact frame.resolveMissingBlock_plays name
  · exact (frame.resolveMissingValue_plays name).bind fun _ _ => .pure trivial

/-- An iteration goes on with the next item only after a text that was within
the bound. -/
theorem renderEach_plays (hframe : frame.template.Keeps licence) (hoptions : options.Keeps licence)
    (items : List Value) :
    Plays licence .called (fun _ => True) fun worker => frame.renderEach worker options items := by
  suffices hgo : ∀ soFar, Plays licence .called (fun _ => True)
      fun worker => renderEach.go frame worker options soFar items from hgo ""
  induction items with
  | nil => exact fun soFar => .pure trivial
  | cons item rest ih =>
      intro soFar
      simp only [renderEach.go]
      refine (options.renderBlock_plays hframe hoptions item).bind fun text _ => ?_
      exact (frame.checkOutput_plays _).bind fun _ _ => ih (soFar ++ text)

theorem renderValueBlock_plays (hframe : frame.template.Keeps licence)
    (hoptions : options.Keeps licence) (scope context : Value) :
    Plays licence .called (fun _ => True)
      fun worker => frame.renderValueBlock worker scope context options := by
  unfold renderValueBlock
  split
  · exact options.renderBlock_plays hframe hoptions scope
  · exact options.renderInverse_plays hframe hoptions scope
  · exact options.renderInverse_plays hframe hoptions scope
  · exact options.renderInverse_plays hframe hoptions scope
  · exact renderEach_plays hframe hoptions _
  · exact options.renderBlock_plays hframe hoptions _

theorem renderIf_plays (hframe : frame.template.Keeps licence) (hoptions : options.Keeps licence)
    (scope context : Value) :
    Plays licence .called (fun _ => True)
      fun worker => frame.renderIf worker scope context options := by
  unfold renderIf
  split
  · exact options.renderInverse_plays hframe hoptions scope
  · exact options.renderBlock_plays hframe hoptions scope

end Frame

theorem Builtin.call_plays (hframe : frame.template.Keeps licence)
    (hoptions : options.Keeps licence) (helper : Builtin) (scope context : Value) :
    Plays licence .called (fun _ => True)
      fun worker => helper.call worker frame scope context options := by
  match helper with
  | .helperMissing => exact frame.resolveMissing_plays _ options
  | .blockHelperMissing =>
      simp only [Builtin.call]
      split
      · exact (Plays.resolve context).bind fun resolved _ =>
          frame.renderValueBlock_plays hframe hoptions scope resolved
      · exact frame.renderValueBlock_plays hframe hoptions scope context
  | .each =>
      simp only [Builtin.call]
      split
      · exact frame.renderEach_plays hframe hoptions _
      · exact options.renderInverse_plays hframe hoptions scope
  | .ifTruthy => exact frame.renderIf_plays hframe hoptions scope context
  | .unless =>
      exact frame.renderIf_plays hframe (options.swapped_keeps hframe hoptions) scope context
  | .within => exact options.renderBlock_plays hframe hoptions context

theorem Action.call_plays (hframe : frame.template.Keeps licence) (hoptions : options.Keeps licence)
    {action : Action} (hallowed : licence.AllowsAction action) (scope context : Value) :
    Plays licence .called (fun _ => True)
      fun worker => action.call worker frame scope context options := by
  cases action with
  | builtin helper => exact helper.call_plays hframe hoptions scope context
  | nodes body =>
      refine .nodes ⟨hframe, ?_⟩ hallowed
      rintro _ ⟨⟩
      exact hoptions

namespace Frame

theorem helper?_plays {manner : Manner} (frame : Frame) (name : String) :
    Plays licence manner (fun found => ∀ helper ∈ found, licence.AllowsHelper helper)
      fun _ => frame.helper? name :=
  .look fun _ hstore _ hfound => hstore.helper hfound

theorem callHelper_plays (hframe : frame.template.Keeps licence) (hoptions : options.Keeps licence)
    (name : String) (scope context : Value) :
    Plays licence .called (fun _ => True)
      fun worker => frame.callHelper worker name scope context options := by
  unfold callHelper
  refine (frame.helper?_plays name).bind fun found hfound => ?_
  cases found with
  | some helper =>
      exact helper.action.call_plays hframe hoptions (hfound helper rfl).1 scope context
  | none =>
      refine (frame.helper?_plays Builtin.helperMissing.name).bind fun missing hmissing => ?_
      cases missing with
      | some helper =>
          exact helper.action.call_plays hframe hoptions (hmissing helper rfl).1 scope _
      | none => exact frame.resolveMissing_plays name options

theorem Finds.alarms {name : String} {store after : Store} {template : Template}
    (h : frame.Finds {} name store (.done template, after)) : after.alarms = store.alarms := by
  cases h with
  | compiled => rfl
  | accepted found given answer made =>
      cases made
      exact (store.alarms_attempted _).trans (Nat.add_zero _)

/-- A partial that cannot be found or compiled fails, and asks for nothing. -/
theorem partialTemplate_plays (hframe : frame.template.Keeps licence) (name : String) :
    Plays licence .called (·.Keeps licence) fun _ => frame.partialTemplate {} name := by
  refine .alone fun store hstore => ?_
  have hfinds := frame.finds_partialTemplate {} name store
  generalize frame.partialTemplate {} name store = x at hfinds ⊢
  obtain ⟨outcome, after⟩ := x
  obtain ⟨hafter, htemplate⟩ := hstore.finds hframe.offers hfinds
  refine ⟨outcome, after, rfl, ?_, fun template hdone => ?_, ?_⟩
  · rintro rfl
    cases hfinds
  · subst hdone
    exact ⟨htemplate template rfl, hafter, hfinds.alarms⟩
  · rintro e rfl
    cases hfinds with
    | missing => exact ⟨⟨rfl, rfl⟩, rfl⟩
    | unavailable => exact ⟨⟨rfl, rfl⟩, rfl⟩
    | rejected => exact ⟨⟨rfl, rfl⟩, store.alarms_attempted _⟩

theorem invokePartial_plays (hframe : frame.template.Keeps licence) (name : String)
    (context : Value) :
    Plays licence .called (fun _ => True)
      fun worker => frame.invokePartial {} worker name context := by
  unfold invokePartial
  refine (partialTemplate_plays hframe name).bind fun template htemplate => ?_
  exact .ask (.template htemplate) ⟨rfl, rfl⟩

end Frame

end Stencil
