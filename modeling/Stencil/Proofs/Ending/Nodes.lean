import Stencil.Proofs.Ending.Helpers

/-!
Programs that end, by induction on their nodes. Every program that a node runs
is written in it: the block of a number too, for it is made where it is
requested. What is not written there are partials, whose ends the frame grounds.
-/

namespace Stencil

variable {holds : Store → Prop} {frame : Frame} {scene : Scene}

/-- A scene in a frame, outside the bodies of helpers. -/
structure Scene.In (frame : Frame) (scene : Scene) : Prop where
  frame : scene.frame = frame
  options : scene.options = none

/-- Nodes end when each of them does. -/
theorem Frame.ends_of {ns : List Node}
    (h : ∀ {scene : Scene}, scene.In frame → ∀ n ∈ ns,
      Ending .anew holds (fun _ => True) fun worker => scene.node .anew worker n) :
    frame.Ends holds ns := by
  intro scene hframe hoptions
  apply Ending.task
  exact .concat ns (h ⟨hframe, hoptions⟩)

theorem Frame.newProgram_ends (grounds : frame.Grounds holds) {body : List Node}
    (hbody : frame.Ends holds body) (data : Option Value) (depths : List Value) :
    Ending .anew holds (fun program => frame.Ends holds program.body)
      fun _ => Render.newProgram body data depths :=
  .alone fun store hstore => ⟨hbody, grounds.programs store _ hstore⟩

namespace Scene

theorem value?_ends {e : Option Expr}
    (h : ∀ expr ∈ e, Ending .anew holds (fun _ => True) fun worker => scene.value worker expr) :
    Ending .anew holds (fun _ => True) fun worker => scene.value? worker e := by
  cases e with
  | none => exact .pure trivial
  | some expr => exact (h expr rfl).map some fun _ _ => trivial

theorem program?_ends {p : Option ProgramExpr}
    (h : ∀ expr ∈ p, Ending .anew holds (fun program => frame.Ends holds program.body)
      fun worker => scene.program .anew worker expr) :
    Ending .anew holds (fun found => ∀ program ∈ found, frame.Ends holds program.body)
      fun worker => scene.program? .anew worker p := by
  cases p with
  | none => exact .pure (by simp)
  | some expr =>
      apply (h expr rfl).map some
      intro program hprogram
      simpa using hprogram

/-- The options of a call hold the programs that are written there, and the
empty program of the template. -/
theorem helperOptions_ends (grounds : frame.Grounds holds) (hscene : scene.In frame)
    {inherits swaps : Bool} {block inverse : Option ProgramExpr} {data : Option Expr}
    (hblock : Ending .anew holds (fun found => ∀ program ∈ found, frame.Ends holds program.body)
      fun worker => scene.program? .anew worker block)
    (hinverse : Ending .anew holds (fun found => ∀ program ∈ found, frame.Ends holds program.body)
      fun worker => scene.program? .anew worker inverse)
    (hdata : Ending .anew holds (fun _ => True) fun worker => scene.value? worker data) :
    Ending .anew holds (·.Ends holds frame)
      fun worker => scene.helperOptions .anew worker (.mk inherits block inverse data swaps) := by
  obtain ⟨hframe, hoptions⟩ := hscene
  have hempty := HelperOptions.ofFrame_ends grounds
  simp only [helperOptions, hframe, hoptions, Option.getD_none, ite_self]
  apply hblock.bind
  intro p hp
  apply hinverse.bind
  intro q hq
  apply hdata.bind
  intro v _
  apply Ending.pure
  have hends : HelperOptions.Ends holds frame
      ⟨p.or (HelperOptions.ofFrame frame).block, q.getD (HelperOptions.ofFrame frame).inverse,
        v.or (HelperOptions.ofFrame frame).data⟩ := by
    constructor
    · simpa [HelperOptions.ofFrame] using hp
    · cases q with
      | none => exact hempty.inverse
      | some q => exact hq q rfl
  split
  · exact HelperOptions.swapped_ends grounds hends
  · exact hends

mutual
theorem value_ends (grounds : frame.Grounds holds) :
    ∀ (e : Expr) {scene : Scene}, scene.In frame →
      Ending .anew holds (fun _ => True) fun worker => scene.value worker e
  | .this _, _, _ | .scope _, _, _ | .data _, _, _ | .ancestor _ _, _, _ | .optionsData _, _, _
  | .literal _, _, _ | .hasData, _, _ | .nesting, _, _ => .pure trivial
  | .resolved e, _, hscene =>
      (value_ends grounds e hscene).bind fun v _ => .resolve grounds.quiet v
  | .field e _, _, hscene => (value_ends grounds e hscene).bind fun _ _ => .pure trivial
  | .safe e, _, hscene => (value_ends grounds e hscene).bind fun _ _ => .pure trivial
  | .rendered nodes, scene, hscene => by
      have hnodes := Frame.ends_of (nodes_end grounds nodes)
      exact (hnodes scene hscene.frame hscene.options).bind fun _ _ => .pure trivial
  | .missingValue name, scene, _ => scene.frame.resolveMissingValue_ends name
termination_by structural e => e

theorem values_end (grounds : frame.Grounds holds) :
    ∀ (es : List Expr) {scene : Scene}, scene.In frame → ∀ e ∈ es,
      Ending .anew holds (fun _ => True) fun worker => scene.value worker e
  | [], _, _, _, member => by simp at member
  | first :: rest, _, hscene, e, member => by
      cases member with
      | head => exact value_ends grounds first hscene
      | tail _ member => exact values_end grounds rest hscene e member
termination_by structural es => es

theorem values?_end (grounds : frame.Grounds holds) :
    ∀ (e : Option Expr) {scene : Scene}, scene.In frame → ∀ expr ∈ e,
      Ending .anew holds (fun _ => True) fun worker => scene.value worker expr
  | none, _, _, _, member => by simp at member
  | some e, _, hscene, expr, member => by
      obtain rfl : e = expr := by simpa using member
      exact value_ends grounds e hscene
termination_by structural e => e

theorem program_ends (grounds : frame.Grounds holds) :
    ∀ (p : ProgramExpr) {scene : Scene}, scene.In frame →
      Ending .anew holds (fun program => frame.Ends holds program.body)
        fun worker => scene.program .anew worker p
  | .cached _ body data, _, hscene => by
      have hbody := Frame.ends_of (nodes_end grounds body)
      apply (value?_ends (values?_end grounds data hscene)).bind
      exact fun v _ => Frame.newProgram_ends grounds hbody _ []
  | .nested body data depths, _, hscene => by
      have hbody := Frame.ends_of (nodes_end grounds body)
      apply (value?_ends (values?_end grounds data hscene)).bind
      intro v _
      apply (Ending.mapM depths (values_end grounds depths hscene)).bind
      exact fun vs _ => Frame.newProgram_ends grounds hbody v vs
  | .plain body data, _, hscene => by
      have hbody := Frame.ends_of (nodes_end grounds body)
      apply (value?_ends (values?_end grounds data hscene)).bind
      exact fun v _ => Frame.newProgram_ends grounds hbody v []
  | .noop, scene, hscene | .block, scene, hscene | .inverse, scene, hscene => by
      apply Ending.pure
      simp [hscene.frame, hscene.options, grounds.noop, Frame.ends_nil]
termination_by structural p => p

theorem programs?_end (grounds : frame.Grounds holds) :
    ∀ (p : Option ProgramExpr) {scene : Scene}, scene.In frame → ∀ expr ∈ p,
      Ending .anew holds (fun program => frame.Ends holds program.body)
        fun worker => scene.program .anew worker expr
  | none, _, _, _, member => by simp at member
  | some p, _, hscene, expr, member => by
      obtain rfl : p = expr := by simpa using member
      exact program_ends grounds p hscene
termination_by structural p => p

theorem options_end (grounds : frame.Grounds holds) :
    ∀ (o : OptionsExpr) {scene : Scene}, scene.In frame →
      Ending .anew holds (·.Ends holds frame) fun worker => scene.helperOptions .anew worker o
  | .mk _ block inverse data _, _, hscene =>
      helperOptions_ends grounds hscene (program?_ends (programs?_end grounds block hscene))
        (program?_ends (programs?_end grounds inverse hscene))
        (value?_ends (values?_end grounds data hscene))
termination_by structural o => o

theorem node_ends (grounds : frame.Grounds holds) :
    ∀ (n : Node) {scene : Scene}, scene.In frame →
      Ending .anew holds (fun _ => True) fun worker => scene.node .anew worker n
  | .text _, _, _ | .settings, _, _ | .isBlock, _, _ => .pure trivial
  | .escaped e, _, hscene | .plain e, _, hscene | .outlined e, _, hscene =>
      (value_ends grounds e hscene).map _ fun _ _ => trivial
  | .call name e o, scene, hscene => by
      simp only [Scene.node, hscene.frame]
      apply (value_ends grounds e hscene).bind
      intro v _
      apply (options_end grounds o hscene).bind
      exact fun p hp => Frame.callHelper_ends grounds hp name scene.scope v
  | .valueBlock e o, scene, hscene => by
      simp only [Scene.node, hscene.frame]
      apply (value_ends grounds e hscene).bind
      intro v _
      apply (options_end grounds o hscene).bind
      exact fun p hp => Frame.blockHelperMissing_ends grounds hp scene.scope v
  | .inclusion name e, scene, hscene => by
      simp only [Scene.node, hscene.frame]
      apply (value_ends grounds e hscene).bind
      exact fun v _ => grounds.partials name v
  | .run p e d, scene, hscene => by
      simp only [Scene.node, hscene.frame]
      apply (value?_ends (values?_end grounds d hscene)).bind
      intro data _
      apply (program_ends grounds p hscene).bind
      intro program hprogram
      apply (value_ends grounds e hscene).bind
      exact fun v _ => Program.render_ends hprogram v data
  | .missing name o, scene, hscene => by
      simp only [Scene.node, hscene.frame]
      apply (options_end grounds o hscene).bind
      exact fun p _ => Frame.resolveMissing_ends grounds name p
  | .missingBlock name o, scene, hscene => by
      simp only [Scene.node, hscene.frame]
      apply (options_end grounds o hscene).bind
      exact fun _ _ => Frame.resolveMissingBlock_ends grounds name
  | .negated name e o, scene, hscene => by
      simp only [Scene.node, hscene.frame]
      apply (Frame.helper?_ends grounds name).bind
      intro found hfound
      match found with
      | none => exact .pure trivial
      | some ⟨_, none⟩ => exact .pure trivial
      | some ⟨_, some negation⟩ =>
          apply (value_ends grounds e hscene).bind
          intro v _
          apply (options_end grounds o hscene).bind
          intro p hp
          exact Action.call_ends grounds hp ((hfound _ rfl).2 negation rfl) scene.scope v
  | .budget size, scene, hscene => by
      simp only [Scene.node, hscene.frame]
      apply (Frame.checkOutput_ends grounds size).bind
      exact fun _ _ => .pure trivial
  | .log severity message, scene, _ => by
      have hlog : Ending .anew holds (fun _ => True)
          fun _ => Render.update (·.log scene.frame.environment severity message) :=
        .update fun s hs => grounds.quiet _ _ hs (s.log_quiet _ severity message)
      exact hlog.bind fun _ _ => .pure trivial
  | .fail _ _, _, _ => .fail _
  | .same p q, _, hscene => by
      apply (program_ends grounds p hscene).bind
      intro first _
      apply (program_ends grounds q hscene).bind
      exact fun second _ => .pure trivial
  | .cachedCount, scene, _ => by
      have hlook : Ending .anew holds (fun _ => True)
          fun _ => Render.look (·.slotsOf scene.frame.template) := .look fun _ _ => trivial
      exact hlook.bind fun _ _ => .pure trivial
  | .hasHelper name, scene, hscene => by
      simp only [Scene.node, hscene.frame]
      exact (Frame.helper?_ends grounds name).bind fun _ _ => .pure trivial
  | .renderOptions, _, _ => .look fun _ _ => trivial
  | .outlinedOptions o, _, hscene =>
      (options_end grounds o hscene).bind fun _ _ => .pure trivial
  | .renderBlock e, scene, hscene | .renderInverse e, scene, hscene => by
      simp only [Scene.node, hscene.options]
      exact (value_ends grounds e hscene).bind fun _ _ => .pure trivial
  | .renderBlockWith _ d, scene, hscene => by
      simp only [Scene.node, hscene.options]
      exact (value_ends grounds d hscene).bind fun _ _ => .pure trivial
  | .ifTruthy e yes no, scene, hscene => by
      apply (value_ends grounds e hscene).bind
      intro v _
      split
      · exact Frame.ends_of (nodes_end grounds yes) scene hscene.frame hscene.options
      · exact Frame.ends_of (nodes_end grounds no) scene hscene.frame hscene.options
  | .ifShallow _ yes no, scene, hscene => by
      simp only [Scene.node]
      split
      · exact Frame.ends_of (nodes_end grounds yes) scene hscene.frame hscene.options
      · exact Frame.ends_of (nodes_end grounds no) scene hscene.frame hscene.options
  | .attempt nodes, scene, hscene =>
      (Frame.ends_of (nodes_end grounds nodes) scene hscene.frame hscene.options).recover
termination_by structural n => n

/-- Each of the nodes ends in a frame that grounds the ends of its partials. -/
theorem nodes_end (grounds : frame.Grounds holds) :
    ∀ (ns : List Node) {scene : Scene}, scene.In frame → ∀ n ∈ ns,
      Ending .anew holds (fun _ => True) fun worker => scene.node .anew worker n
  | [], _, _, _, member => by simp at member
  | first :: rest, _, hscene, n, member => by
      cases member with
      | head => exact node_ends grounds first hscene
      | tail _ member => exact nodes_end grounds rest hscene n member
termination_by structural ns => ns
end

end Scene

end Stencil
