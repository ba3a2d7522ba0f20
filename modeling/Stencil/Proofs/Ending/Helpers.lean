import Stencil.Proofs.Ending.Basic

/-!
Helpers that end. A built-in helper asks for the block or the alternative that
it was called with, an iteration asks for its block once for each item, and
there are finitely many items. So a call ends when the programs end that it was
called with. A helper of the user could call itself, and is none of these.
-/

namespace Stencil

/-- Helpers of the runtime itself, also where they are registered under other
names. -/
def Action.IsBuiltin : Action → Prop
  | .builtin _ => True
  | .nodes _ => False

def Helper.IsBuiltin (helper : Helper) : Prop :=
  helper.action.IsBuiltin ∧ ∀ negation ∈ helper.negation, negation.IsBuiltin

/-- Every program is made anew where it is requested. -/
abbrev Reuse.anew : Reuse := { programs := false }

/-- What the end of programs in a frame rests on. They leave what holds of the
store as it is, all helpers are built in, and references to partials end. -/
structure Frame.Grounds (holds : Store → Prop) (frame : Frame) : Prop where
  quiet : ∀ s t, holds s → s.Quiet t → holds t
  programs : ∀ s fresh, holds s → holds { s with freshProgram := fresh }
  helpers : ∀ s name helper, holds s → s.helper? frame name = some helper → helper.IsBuiltin
  noop : frame.template.noop.body = []
  partials : ∀ name context, Ending .anew holds (fun _ => True)
    fun worker => frame.invokePartial .anew worker name context

/-- Nodes that end wherever they run in a frame, apart from bodies of helpers. -/
def Frame.Ends (holds : Store → Prop) (frame : Frame) (nodes : List Node) : Prop :=
  ∀ scene : Scene, scene.frame = frame → scene.options = none →
    Ending .anew holds (fun _ => True) fun worker => worker (.nodes scene nodes)

/-- Options whose programs end. -/
structure HelperOptions.Ends (holds : Store → Prop) (frame : Frame) (options : HelperOptions) :
    Prop where
  block : ∀ block ∈ options.block, frame.Ends holds block.body
  inverse : frame.Ends holds options.inverse.body

variable {holds : Store → Prop} {frame : Frame} {options : HelperOptions}

theorem Frame.ends_nil : frame.Ends holds [] := by
  intro scene _ _
  apply Ending.task
  exact Ending.pure trivial

theorem Program.render_ends {program : Program} (h : frame.Ends holds program.body)
    (context : Value) (data : Option Value) :
    Ending .anew holds (fun _ => True)
      fun worker => program.render worker frame context data :=
  h _ rfl rfl

namespace HelperOptions

theorem renderBlock_ends (h : options.Ends holds frame) (context : Value) :
    Ending .anew holds (fun _ => True)
      fun worker => options.renderBlock worker frame context := by
  unfold renderBlock
  split
  case h_1 block hblock => exact Program.render_ends (h.block block hblock) context none
  case h_2 => exact .pure trivial

theorem renderInverse_ends (h : options.Ends holds frame) (context : Value) :
    Ending .anew holds (fun _ => True)
      fun worker => options.renderInverse worker frame context :=
  Program.render_ends h.inverse context none

theorem ofFrame_ends (grounds : frame.Grounds holds) : (ofFrame frame).Ends holds frame where
  block := by simp [ofFrame]
  inverse := by
    simp only [ofFrame, grounds.noop]
    exact Frame.ends_nil

theorem swapped_ends (grounds : frame.Grounds holds) (h : options.Ends holds frame) :
    (options.swapped frame).Ends holds frame where
  block := by
    intro block hblock
    obtain rfl : options.inverse = block := by simpa [swapped] using hblock
    exact h.inverse
  inverse := by
    simp only [swapped]
    cases hblock : options.block with
    | none =>
        simp only [Option.getD_none, grounds.noop]
        exact Frame.ends_nil
    | some block => exact h.block block hblock

end HelperOptions

namespace Frame

theorem checkOutput_ends (grounds : frame.Grounds holds) (size : Nat) :
    Ending .anew holds (fun _ => True) fun _ => frame.checkOutput size := by
  unfold checkOutput
  split
  case h_1 limit _ =>
    split
    · apply (Ending.note grounds.quiet _).bind
      exact fun _ _ => .fail _
    · exact .pure trivial
  case h_2 => exact .pure trivial

theorem resolveMissingValue_ends (frame : Frame) (name : String) :
    Ending .anew holds (fun _ => True) fun _ => frame.resolveMissingValue name := by
  unfold resolveMissingValue
  split
  · exact .fail _
  · exact .fail _
  · exact .pure trivial

theorem resolveMissingBlock_ends (grounds : frame.Grounds holds) (name : String) :
    Ending .anew holds (fun _ => True) fun _ => frame.resolveMissingBlock name := by
  have hnoted : Ending .anew holds (fun _ => True)
      fun _ => Render.note (.missingBlock name) >>= fun _ => pure "" :=
    (Ending.note grounds.quiet _).bind fun _ _ => .pure trivial
  unfold resolveMissingBlock
  split
  · exact .fail _
  · exact hnoted
  · exact hnoted

theorem resolveMissing_ends (grounds : frame.Grounds holds) (name : String)
    (options : HelperOptions) :
    Ending .anew holds (fun _ => True) fun _ => frame.resolveMissing name options := by
  unfold resolveMissing
  split
  · exact resolveMissingBlock_ends grounds name
  · exact (frame.resolveMissingValue_ends name).bind fun _ _ => .pure trivial

/-- An iteration ends by induction on the items that are left. -/
theorem renderEach_ends (grounds : frame.Grounds holds) (h : options.Ends holds frame)
    (items : List Value) :
    Ending .anew holds (fun _ => True) fun worker => frame.renderEach worker options items := by
  suffices hgo : ∀ soFar, Ending .anew holds (fun _ => True)
      fun worker => renderEach.go frame worker options soFar items from hgo ""
  induction items with
  | nil => exact fun soFar => .pure trivial
  | cons item rest ih =>
      intro soFar
      simp only [renderEach.go]
      apply (HelperOptions.renderBlock_ends h item).bind
      intro text _
      apply (checkOutput_ends grounds _).bind
      exact fun _ _ => ih (soFar ++ text)

theorem renderValueBlock_ends (grounds : frame.Grounds holds) (h : options.Ends holds frame)
    (scope context : Value) :
    Ending .anew holds (fun _ => True)
      fun worker => frame.renderValueBlock worker scope context options := by
  unfold renderValueBlock
  split
  · exact HelperOptions.renderBlock_ends h scope
  · exact HelperOptions.renderInverse_ends h scope
  · exact HelperOptions.renderInverse_ends h scope
  · exact HelperOptions.renderInverse_ends h scope
  · exact renderEach_ends grounds h _
  · exact HelperOptions.renderBlock_ends h _

theorem renderIf_ends (h : options.Ends holds frame) (scope context : Value) :
    Ending .anew holds (fun _ => True)
      fun worker => frame.renderIf worker scope context options := by
  unfold renderIf
  split
  · exact HelperOptions.renderInverse_ends h scope
  · exact HelperOptions.renderBlock_ends h scope

end Frame

theorem Builtin.call_ends (grounds : frame.Grounds holds) (h : options.Ends holds frame)
    (helper : Builtin) (scope context : Value) :
    Ending .anew holds (fun _ => True)
      fun worker => helper.call worker frame scope context options := by
  match helper with
  | .helperMissing => exact Frame.resolveMissing_ends grounds _ options
  | .blockHelperMissing =>
      simp only [Builtin.call]
      split
      · apply (Ending.resolve grounds.quiet context).bind
        exact fun resolved _ => Frame.renderValueBlock_ends grounds h scope resolved
      · exact Frame.renderValueBlock_ends grounds h scope context
  | .each =>
      simp only [Builtin.call]
      split
      · exact Frame.renderEach_ends grounds h _
      · exact HelperOptions.renderInverse_ends h scope
  | .ifTruthy => exact Frame.renderIf_ends h scope context
  | .unless => exact Frame.renderIf_ends (HelperOptions.swapped_ends grounds h) scope context
  | .within => exact HelperOptions.renderBlock_ends h context

theorem Action.call_ends (grounds : frame.Grounds holds) (h : options.Ends holds frame)
    {action : Action} (hbuiltin : action.IsBuiltin) (scope context : Value) :
    Ending .anew holds (fun _ => True)
      fun worker => action.call worker frame scope context options := by
  cases action with
  | builtin helper => exact Builtin.call_ends grounds h helper scope context
  | nodes body => exact hbuiltin.elim

namespace Frame

theorem helper?_ends (grounds : frame.Grounds holds) (name : String) :
    Ending .anew holds (fun found => ∀ helper ∈ found, helper.IsBuiltin)
      fun _ => frame.helper? name :=
  .look fun store hstore helper hfound => grounds.helpers store name helper hstore hfound

/-- A call ends, also one of a name that no registry knows. -/
theorem callHelper_ends (grounds : frame.Grounds holds) (h : options.Ends holds frame)
    (name : String) (scope context : Value) :
    Ending .anew holds (fun _ => True)
      fun worker => frame.callHelper worker name scope context options := by
  unfold callHelper
  apply (helper?_ends grounds name).bind
  intro found hfound
  cases found with
  | some helper => exact Action.call_ends grounds h (hfound helper rfl).1 scope context
  | none =>
      apply (helper?_ends grounds Builtin.helperMissing.name).bind
      intro missing hmissing
      cases missing with
      | some helper => exact Action.call_ends grounds h (hmissing helper rfl).1 scope _
      | none => exact resolveMissing_ends grounds name options

theorem blockHelperMissing_ends (grounds : frame.Grounds holds) (h : options.Ends holds frame)
    (scope context : Value) :
    Ending .anew holds (fun _ => True)
      fun worker => frame.blockHelperMissing worker scope context options := by
  unfold blockHelperMissing
  apply (helper?_ends grounds Builtin.blockHelperMissing.name).bind
  intro found hfound
  cases found with
  | some helper => exact Action.call_ends grounds h (hfound helper rfl).1 scope context
  | none => exact Builtin.call_ends grounds h .blockHelperMissing scope context

end Frame

end Stencil
