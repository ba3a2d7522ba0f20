import Stencil.Proofs.Plays.Helpers

/-!
Plays of pages. A page asks for its own blocks, and through the registries for
helpers and partials. Those are outside the page: their failures become its
reason, while what fails on the page itself is passed on as it is.
-/

namespace Stencil

variable {licence : Licence} {page : Page}

namespace Page

/-- The elements of a block, in whatever scope they are. -/
theorem elements_plays (hpage : page.frame.template.Keeps licence) {inside : Page}
    (hinside : inside.frame = page.frame) (elements : List Source.Element) :
    Plays licence .page (fun _ => True) fun worker => worker (.page inside elements) :=
  .ask (.page (hinside ▸ hpage)) (.inl ⟨rfl, rfl⟩)

theorem refuse_plays {values : α → Prop} {reason : Option String}
    (h : (RenderError.ofPage reason).OfPageItself) :
    Plays licence .page values fun _ => Render.fail (.ofPage reason) :=
  .fail (.inl ⟨h, rfl⟩) rfl

theorem ofOption_plays (found : Option α) :
    Plays licence .page (fun _ => True) fun _ => Render.ofOption (.ofPage none) found := by
  cases found with
  | none => exact refuse_plays (.inl rfl)
  | some a => exact .pure trivial

theorem renderSome_plays (hpage : page.frame.template.Keeps licence)
    (elements : Option (List Source.Element)) :
    Plays licence .page (fun _ => True) fun worker => page.renderSome worker elements := by
  cases elements with
  | none => exact .pure trivial
  | some elements => exact elements_plays hpage rfl elements

theorem renderRounds_plays (hpage : page.frame.template.Keeps licence) (whole : Found)
    (block : Block) (givesKey : Bool) (entries : List (String × Json × Json)) :
    Plays licence .page (fun _ => True)
      fun worker => page.renderRounds worker whole block givesKey entries := by
  unfold renderRounds
  refine .concat _ fun entry _ => ?_
  refine elements_plays hpage ?_ block.body
  rfl

theorem renderEach_plays (hpage : page.frame.template.Keeps licence) (whole : Found)
    (block : Block) :
    Plays licence .page (fun _ => True) fun worker => page.renderEach worker whole block := by
  unfold renderEach
  split
  · exact renderRounds_plays hpage whole block false _
  · exact renderRounds_plays hpage whole block true _
  · exact renderSome_plays hpage block.alternative

theorem renderWithin_plays (hpage : page.frame.template.Keeps licence) (found : Found)
    (block : Option Block) :
    Plays licence .page (fun _ => True) fun worker => page.renderWithin worker found block := by
  unfold renderWithin
  split
  · cases block with
    | none => exact .pure trivial
    | some block =>
        refine elements_plays hpage ?_ block.body
        rfl
  · exact renderSome_plays hpage _

theorem output_plays {text : Worker → Render String}
    (h : Plays licence .page (fun _ => True) text) :
    Plays licence .page (fun _ => True) fun worker => Yield.output <$> text worker :=
  h.map Yield.output fun _ _ => trivial

theorem callNative_plays (hpage : page.frame.template.Keeps licence) (helper : Native)
    (arguments : Arguments) (block : Option Block) :
    Plays licence .page (fun _ => True)
      fun worker => page.callNative worker helper arguments block := by
  unfold callNative
  split
  · exact output_plays (renderSome_plays hpage _)
  · cases block with
    | none => exact .pure trivial
    | some block => exact output_plays (renderEach_plays hpage _ block)
  · exact output_plays (renderWithin_plays hpage _ block)
  · exact output_plays (renderSome_plays hpage _)
  · split
    · exact .pure trivial
    · exact refuse_plays (.inl rfl)
  · split
    · exact output_plays (renderSome_plays hpage _)
    · exact .pure trivial
    · exact refuse_plays (.inl rfl)

/-- A helper or a partial of the registries is called outside the page. -/
theorem call_plays (hpage : page.frame.template.Keeps licence) (callee : Callee)
    (arguments : Arguments) (block : Option Block) :
    Plays licence .page (fun _ => True)
      fun worker => page.call {} worker callee arguments block := by
  cases callee with
  | native helper => exact callNative_plays hpage helper arguments block
  | registered name =>
      have hoptions := HelperOptions.ofFrame_keeps hpage
      exact (page.frame.callHelper_plays hpage hoptions name _ _).outside.bind
        fun _ _ => .pure trivial
  | dispatcher =>
      simp only [call]
      split
      · exact (page.frame.invokePartial_plays hpage _ _).outside.bind fun _ _ => .pure trivial
      · exact refuse_plays (.inr rfl)

theorem callee_plays (page : Page) (name : String) :
    Plays licence .page (fun _ => True) fun _ => page.callee name := by
  have hlook : Plays licence .page (fun _ => True)
      fun _ => Render.look (callee? · page.frame name) := .look fun _ _ => trivial
  exact hlook.bind fun found _ => ofOption_plays found

mutual
theorem operand_plays (hpage : page.frame.template.Keeps licence) :
    ∀ o : Source.Operand,
      Plays licence .page (fun _ => True) fun worker => page.operand {} worker o
  | .word _ => .pure trivial
  | .path path => ofOption_plays (page.find path)
  | .literal _ => .pure trivial
  | .call call => nestedCall_plays hpage call
termination_by structural o => o

theorem nestedCall_plays (hpage : page.frame.template.Keeps licence) :
    ∀ c : Source.Call,
      Plays licence .page (fun _ => True) fun worker => page.nestedCall {} worker c
  | .mk head plain named => by
      refine (headName_plays hpage head).bind fun name _ => ?_
      refine (operands_plays hpage plain).bind fun plain _ => ?_
      refine (namedOperands_plays hpage named).bind fun named _ => ?_
      refine (page.callee_plays name).bind fun callee _ => ?_
      refine (call_plays hpage callee ⟨plain, named⟩ none).bind fun yield _ => ?_
      cases yield with
      | value value => exact .pure trivial
      | output text => exact .pure trivial
termination_by structural c => c

theorem headName_plays (hpage : page.frame.template.Keeps licence) :
    ∀ o : Source.Operand,
      Plays licence .page (fun _ => True) fun worker => page.headName {} worker o
  | .word _ => .pure trivial
  | .path _ => .pure trivial
  | .literal _ => .pure trivial
  | .call call => (nestedCall_plays hpage call).bind fun _ _ => .pure trivial
termination_by structural o => o

theorem operands_plays (hpage : page.frame.template.Keeps licence) :
    ∀ os : List Source.Operand,
      Plays licence .page (fun _ => True) fun worker => page.operands {} worker os
  | [] => .pure trivial
  | o :: rest =>
    (operand_plays hpage o).bind fun _ _ =>
      (operands_plays hpage rest).bind fun _ _ => .pure trivial
termination_by structural os => os

theorem namedOperands_plays (hpage : page.frame.template.Keeps licence) :
    ∀ os : List (String × Source.Operand),
      Plays licence .page (fun _ => True) fun worker => page.namedOperands {} worker os
  | [] => .pure trivial
  | (_, o) :: rest =>
    (operand_plays hpage o).bind fun _ _ =>
      (namedOperands_plays hpage rest).bind fun _ _ => .pure trivial
termination_by structural os => os
end

theorem arguments_plays (hpage : page.frame.template.Keeps licence) (call : Source.Call) :
    Plays licence .page (fun _ => True) fun worker => page.arguments {} worker call :=
  (operands_plays hpage call.arguments).bind fun _ _ =>
    (namedOperands_plays hpage call.named).bind fun _ _ => .pure trivial

theorem write_plays (page : Page) (text : String) :
    Plays licence .page (fun _ => True) fun _ => page.write text := by
  refine .alone fun store hstore => ?_
  exact ⟨_, _, rfl, fun hends => (nomatch hends),
    fun _ _ => ⟨trivial, hstore.congr rfl rfl rfl, rfl⟩, fun _ hfailed => nomatch hfailed⟩

/-- The pen is left where a failure finds it; whoever took it up puts it back. -/
theorem part_plays (indents : Pen → Bool) {action : Worker → Render String}
    (h : Plays licence .page (fun _ => True) action) :
    Plays licence .page (fun _ => True) fun worker => part indents (action worker) := by
  have hpen : ∀ change : Store → Pen, Plays licence .page (fun _ => True)
      fun _ => Render.update fun store => { store with pen := change store } := fun change =>
    .update fun _ hstore => ⟨hstore.congr rfl rfl rfl, rfl⟩
  have hlook : Plays licence .page (fun _ => True) fun _ => Render.look (·.pen) :=
    .look fun _ _ => trivial
  refine hlook.bind fun before _ => ?_
  refine (hpen _).bind fun _ _ => ?_
  exact h.bind fun _ _ => (hpen _).bind fun _ _ => .pure trivial

theorem renderCall_plays (page : Page) (hasOwnLine isRaw : Bool) {yield : Worker → Render Yield}
    (h : Plays licence .page (fun _ => True) yield) :
    Plays licence .page (fun _ => True)
      fun worker => page.renderCall hasOwnLine isRaw (yield worker) := by
  refine part_plays _ (h.bind fun yield _ => ?_)
  cases yield with
  | value value => exact page.write_plays _
  | output text => exact .pure trivial

theorem renderBlock_plays (hpage : page.frame.template.Keeps licence) (call : Source.Call)
    (hasOwnLine : Bool) (block : Block) :
    Plays licence .page (fun _ => True)
      fun worker => page.renderBlock {} worker call hasOwnLine block := by
  refine (headName_plays hpage call.head).bind fun name _ => ?_
  refine (arguments_plays hpage call).bind fun arguments _ => ?_
  refine (page.callee_plays name).bind fun callee _ => ?_
  exact page.renderCall_plays hasOwnLine false (call_plays hpage callee arguments (some block))

theorem checkPartials_plays (names : List String) :
    Plays licence .template (fun _ => True) fun _ => checkPartials names := by
  induction names with
  | nil => exact .pure trivial
  | cons name rest ih =>
      unfold checkPartials
      split
      · exact ih
      · exact .fail rfl rfl

/-- What comes before a page is written may fail, and then no page is begun. -/
theorem render_plays {frame : Frame} (hframe : frame.template.Keeps licence)
    (elements : List Source.Element) (context : Value) :
    Plays licence .template (fun _ => True) fun worker => render worker frame elements context := by
  unfold render
  have hnames : ∀ view : Store → List String,
      Plays licence .template (fun _ => True) fun _ => Render.look view :=
    fun _ => .look fun _ _ => trivial
  refine (hnames (helperNames · frame)).bind fun helpers _ => ?_
  refine (hnames (partialNames · frame)).bind fun partials _ => ?_
  refine (checkPartials_plays partials).bind fun _ _ => ?_
  refine (Plays.note rfl).bind fun _ _ => ?_
  have hpage : (start frame elements context.toJson.1).frame.template.Keeps licence := hframe
  exact (Plays.tally context.toJson.2).bind fun _ _ => (Plays.ask (.page hpage) rfl).withPen

end Page

end Stencil
