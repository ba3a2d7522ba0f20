import Stencil.Proofs.Ending.Basic

/-!
Pages that end. What a page asks of the registries is calls of helpers and
partials, and a page that always ends when these do is called so. A page may
include itself and then need not end, whatever the calls do; the main statement
is that pages end which include other partials only.
-/

namespace Stencil

/-- The calls end that a page makes into the registries of its frame. -/
structure Frame.Answers (reuse : Reuse) (holds : Store → Prop) (frame : Frame) : Prop where
  quiet : ∀ s t, holds s → s.Quiet t → holds t
  helpers : ∀ name scope context, Ending reuse holds (fun _ => True)
    fun worker => frame.callHelper worker name scope context (.ofFrame frame)
  partials : ∀ name context, Ending reuse holds (fun _ => True)
    fun worker => frame.invokePartial reuse worker name context

/-- A page that ends in every frame where its calls into the registries end. -/
def Source.Ends (elements : List Source.Element) : Prop :=
  ∀ reuse holds (frame : Frame) data, frame.Answers reuse holds →
    Ending reuse holds (fun _ => True)
      fun worker => worker (.page (.start frame elements data) elements)

namespace Source

/-- The name that an operand is as it is written; a call has none. -/
def Operand.name? : Operand → Option String
  | .word name => some name
  | .path p => some p.written
  | .literal v => some v.shown
  | .call _ => none

mutual
/-- Every inclusion names one of the partials that are allowed. -/
def IncludesOnly (allowed : String → Prop) : List Element → Prop
  | [] => True
  | element :: rest => ElementIncludesOnly allowed element ∧ IncludesOnly allowed rest
termination_by structural elements => elements

def AlternativeIncludesOnly (allowed : String → Prop) : Option (List Element) → Prop
  | none => True
  | some elements => IncludesOnly allowed elements
termination_by structural elements => elements

def ElementIncludesOnly (allowed : String → Prop) : Element → Prop
  | .text _ | .expression _ _ => True
  | .block _ _ _ body alternative =>
    IncludesOnly allowed body ∧ AlternativeIncludesOnly allowed alternative
  | .inclusion call _ => ∃ name, call.head.name? = some name ∧ allowed name
termination_by structural element => element
end

/-- A page on which every inclusion names a partial other than the page itself,
and none of their stand-ins includes anything. -/
def IncludesOthers (elements : List Element) : Prop :=
  IncludesOnly (fun name => name ≠ Page.ownName ∧
    ∀ standIn, Page.standIn? name = some standIn → IncludesOnly (fun _ => False) standIn) elements

end Source

variable {reuse : Reuse} {holds : Store → Prop} {frame : Frame} {page : Page}

/-- Elements that end in whatever scopes of a page of the frame they stand. -/
def Frame.EndsPage (reuse : Reuse) (holds : Store → Prop) (frame : Frame)
    (elements : List Source.Element) : Prop :=
  ∀ page : Page, page.frame = frame →
    Ending reuse holds (fun _ => True) fun worker => worker (.page page elements)

/-- A block whose elements end. -/
structure Block.Ends (reuse : Reuse) (holds : Store → Prop) (frame : Frame) (block : Block) :
    Prop where
  body : frame.EndsPage reuse holds block.body
  alternative : ∀ elements ∈ block.alternative, frame.EndsPage reuse holds elements

namespace Page

theorem renderSome_ends (hframe : page.frame = frame) {elements : Option (List Source.Element)}
    (h : ∀ list ∈ elements, frame.EndsPage reuse holds list) :
    Ending reuse holds (fun _ => True) fun worker => page.renderSome worker elements := by
  cases elements with
  | none => exact .pure trivial
  | some list => exact h list rfl page hframe

theorem renderRounds_ends (hframe : page.frame = frame) {block : Block}
    (h : block.Ends reuse holds frame) (whole : Found) (givesKey : Bool)
    (entries : List (String × Json × Json)) :
    Ending reuse holds (fun _ => True)
      fun worker => page.renderRounds worker whole block givesKey entries := by
  unfold renderRounds
  apply Ending.concat
  intro entry _
  exact h.body _ hframe

theorem renderEach_ends (hframe : page.frame = frame) {block : Block}
    (h : block.Ends reuse holds frame) (whole : Found) :
    Ending reuse holds (fun _ => True) fun worker => page.renderEach worker whole block := by
  unfold renderEach
  split
  · exact renderRounds_ends hframe h whole false _
  · exact renderRounds_ends hframe h whole true _
  · exact renderSome_ends hframe h.alternative

variable {block : Option Block} (hblock : ∀ given ∈ block, given.Ends reuse holds frame)

include hblock

theorem renderWithin_ends (hframe : page.frame = frame) (found : Found) :
    Ending reuse holds (fun _ => True) fun worker => page.renderWithin worker found block := by
  unfold renderWithin
  cases block with
  | none =>
      split
      · exact .pure trivial
      · exact .pure trivial
  | some given =>
      split
      · exact (hblock given rfl).body _ hframe
      · exact renderSome_ends hframe (hblock given rfl).alternative

/-- A helper that pages know by themselves renders the body of its block, the
alternative, or neither, and the body as often as there are parts of a value. -/
theorem callNative_ends (hframe : page.frame = frame) (helper : Native)
    (arguments : Arguments) :
    Ending reuse holds (fun _ => True)
      fun worker => page.callNative worker helper arguments block := by
  have hchosen : ∀ holds' : Bool, ∀ list ∈
      block.bind fun given => if holds' then some given.body else given.alternative,
      frame.EndsPage reuse holds list := by
    intro holds' list hlist
    obtain ⟨given, hgiven, hlist⟩ := Option.bind_eq_some_iff.mp hlist
    have hends := hblock given hgiven
    cases holds' with
    | true =>
        obtain rfl : given.body = list := by simpa using hlist
        exact hends.body
    | false => exact hends.alternative list hlist
  have hbody : ∀ list ∈ block.map (·.body), frame.EndsPage reuse holds list := by
    intro list hlist
    obtain ⟨given, hgiven, rfl⟩ := Option.map_eq_some_iff.mp hlist
    exact (hblock given hgiven).body
  have houtput : ∀ {text : Worker → Render String}, Ending reuse holds (fun _ => True) text →
      Ending reuse holds (fun _ => True) fun worker => Yield.output <$> text worker :=
    fun htext => htext.map Yield.output fun _ _ => trivial
  unfold callNative
  split
  · exact houtput (renderSome_ends hframe (hchosen _))
  · cases block with
    | none => exact .pure trivial
    | some given => exact houtput (renderEach_ends hframe (hblock given rfl) _)
  · exact houtput (renderWithin_ends hblock hframe _)
  · exact houtput (renderSome_ends hframe hbody)
  · split
    · exact .pure trivial
    · exact .fail _
  · split
    · exact houtput (renderSome_ends hframe (hchosen _))
    · exact .pure trivial
    · exact .fail _

theorem call_ends (answers : frame.Answers reuse holds) (hframe : page.frame = frame)
    (callee : Callee) (arguments : Arguments) :
    Ending reuse holds (fun _ => True)
      fun worker => page.call reuse worker callee arguments block := by
  cases callee with
  | native helper => exact callNative_ends hblock hframe helper arguments
  | registered name =>
      simp only [call, hframe]
      apply ((answers.helpers name _ _).mapError _).bind
      exact fun _ _ => .pure trivial
  | dispatcher =>
      simp only [call, hframe]
      split
      · apply ((answers.partials _ _).mapError _).bind
        exact fun _ _ => .pure trivial
      · exact .fail _

omit hblock

theorem callee_ends (page : Page) (name : String) :
    Ending reuse holds (fun _ => True) fun _ => page.callee name := by
  have hlook : Ending reuse holds (fun _ => True)
      fun _ => Render.look (callee? · page.frame name) := .look fun _ _ => trivial
  exact hlook.bind fun found _ => .ofOption _ found fun _ _ => trivial

mutual
theorem operand_ends (answers : frame.Answers reuse holds) (hframe : page.frame = frame) :
    ∀ o : Source.Operand,
    Ending reuse holds (fun _ => True) fun worker => page.operand reuse worker o
  | .word _ => .pure trivial
  | .path path => .ofOption _ (page.find path) fun _ _ => trivial
  | .literal _ => .pure trivial
  | .call call => nestedCall_ends answers hframe call
termination_by structural o => o

theorem nestedCall_ends (answers : frame.Answers reuse holds) (hframe : page.frame = frame) :
    ∀ c : Source.Call,
    Ending reuse holds (fun _ => True) fun worker => page.nestedCall reuse worker c
  | .mk head plain named => by
      apply (headName_ends answers hframe head).bind
      intro name _
      apply (operands_end answers hframe plain).bind
      intro plain _
      apply (namedOperands_end answers hframe named).bind
      intro named _
      apply (page.callee_ends name).bind
      intro callee _
      have hnone : ∀ given ∈ (none : Option Block), given.Ends reuse holds frame := by simp
      apply (call_ends hnone answers hframe callee ⟨plain, named⟩).bind
      intro yield _
      cases yield with
      | value value => exact .pure trivial
      | output text => exact .pure trivial
termination_by structural c => c

theorem headName_ends (answers : frame.Answers reuse holds) (hframe : page.frame = frame) :
    ∀ o : Source.Operand,
    Ending reuse holds (fun name => ∀ written, o.name? = some written → name = written)
      fun worker => page.headName reuse worker o
  | .word name => .pure fun written h => Option.some.inj h
  | .path path => .pure fun written h => Option.some.inj h
  | .literal value => .pure fun written h => Option.some.inj h
  | .call call => by
      apply (nestedCall_ends answers hframe call).bind
      intro found _
      exact .pure fun written h => by simp [Source.Operand.name?] at h
termination_by structural o => o

theorem operands_end (answers : frame.Answers reuse holds) (hframe : page.frame = frame) :
    ∀ os : List Source.Operand,
    Ending reuse holds (fun _ => True) fun worker => page.operands reuse worker os
  | [] => .pure trivial
  | o :: rest => by
      apply (operand_ends answers hframe o).bind
      intro found _
      apply (operands_end answers hframe rest).bind
      exact fun _ _ => .pure trivial
termination_by structural os => os

theorem namedOperands_end (answers : frame.Answers reuse holds) (hframe : page.frame = frame) :
    ∀ os : List (String × Source.Operand),
    Ending reuse holds (fun _ => True) fun worker => page.namedOperands reuse worker os
  | [] => .pure trivial
  | (_, o) :: rest => by
      apply (operand_ends answers hframe o).bind
      intro found _
      apply (namedOperands_end answers hframe rest).bind
      exact fun _ _ => .pure trivial
termination_by structural os => os
end

section

variable (answers : frame.Answers reuse holds) (hframe : page.frame = frame)

include answers hframe

theorem arguments_end (call : Source.Call) :
    Ending reuse holds (fun _ => True) fun worker => page.arguments reuse worker call := by
  apply (operands_end answers hframe call.arguments).bind
  intro plain _
  apply (namedOperands_end answers hframe call.named).bind
  exact fun _ _ => .pure trivial

omit hframe

theorem pen_ends (change : Store → Pen) :
    Ending reuse holds (fun _ => True)
      fun _ => Render.update fun store => { store with pen := change store } :=
  .update fun store hstore => answers.quiet _ _ hstore (store.pen_quiet (change store))

theorem write_ends (page : Page) (text : String) :
    Ending reuse holds (fun _ => True) fun _ => page.write text :=
  .alone fun store hstore => ⟨trivial, answers.quiet _ _ hstore (store.pen_quiet _)⟩

theorem part_ends (indents : Pen → Bool) {action : Worker → Render String}
    (h : Ending reuse holds (fun _ => True) action) :
    Ending reuse holds (fun _ => True) fun worker => part indents (action worker) := by
  have hlook : Ending reuse holds (fun _ => True) fun _ => Render.look (·.pen) :=
    .look fun _ _ => trivial
  apply hlook.bind
  intro before _
  apply (pen_ends answers _).bind
  intro _ _
  apply h.bind
  intro text _
  apply (pen_ends answers _).bind
  exact fun _ _ => .pure trivial

theorem renderCall_ends (page : Page) (hasOwnLine isRaw : Bool) {yield : Worker → Render Yield}
    (h : Ending reuse holds (fun _ => True) yield) :
    Ending reuse holds (fun _ => True)
      fun worker => page.renderCall hasOwnLine isRaw (yield worker) := by
  apply part_ends answers
  apply h.bind
  intro given _
  cases given with
  | value value => exact write_ends answers page _
  | output text => exact .pure trivial

include hframe

theorem renderExpression_ends (isRaw : Bool) (call : Source.Call) :
    Ending reuse holds (fun _ => True)
      fun worker => page.renderExpression reuse worker isRaw call := by
  have hnone : ∀ given ∈ (none : Option Block), given.Ends reuse holds frame := by simp
  have hlook : ∀ name, Ending reuse holds (fun _ => True)
      fun _ => Render.look (callee? · page.frame name) := fun _ => .look fun _ _ => trivial
  unfold renderExpression
  apply (headName_ends answers hframe call.head).bind
  intro name _
  apply (hlook name).bind
  intro known _
  split
  · apply (operand_ends answers hframe call.head).bind
    intro found _
    split
    · exact .pure trivial
    · exact write_ends answers page _
  · apply (headName_ends answers hframe call.head).bind
    intro name _
    apply (arguments_end answers hframe call).bind
    intro arguments _
    apply (page.callee_ends name).bind
    intro callee _
    exact renderCall_ends answers page false isRaw
      (call_ends hnone answers hframe callee arguments)

theorem renderBlock_ends {block : Block} (h : block.Ends reuse holds frame)
    (call : Source.Call) (hasOwnLine : Bool) :
    Ending reuse holds (fun _ => True)
      fun worker => page.renderBlock reuse worker call hasOwnLine block := by
  have hblock : ∀ given ∈ some block, given.Ends reuse holds frame := by
    intro given hgiven
    obtain rfl : block = given := by simpa using hgiven
    exact h
  apply (headName_ends answers hframe call.head).bind
  intro name _
  apply (arguments_end answers hframe call).bind
  intro arguments _
  apply (page.callee_ends name).bind
  intro callee _
  exact renderCall_ends answers page hasOwnLine false
    (call_ends hblock answers hframe callee arguments)

/-- An inclusion ends if the elements do that stand for the partial which it
names. -/
theorem renderInclusion_ends {call : Source.Call} {written : String}
    (hwritten : call.head.name? = some written)
    (h : ∀ store elements, partial? store page written = some elements →
      frame.EndsPage reuse holds elements) (indent : Source.Indent) :
    Ending reuse holds (fun _ => True)
      fun worker => page.renderInclusion reuse worker call indent := by
  unfold renderInclusion
  apply (headName_ends answers hframe call.head).bind
  intro name hname
  obtain rfl := hname written hwritten
  apply (arguments_end answers hframe call).bind
  intro arguments _
  have hlook : Ending reuse holds
      (fun found => ∀ elements ∈ found, frame.EndsPage reuse holds elements)
      fun _ => Render.look (partial? · page name) :=
    .look fun store _ elements hfound => h store elements hfound
  apply hlook.bind
  intro found hfound
  have hopened : Ending reuse holds (frame.EndsPage reuse holds)
      fun _ => Render.ofOption (.ofPage none) found :=
    .ofOption _ found fun elements hsome => hfound elements hsome
  apply hopened.bind
  intro elements helements
  cases arguments.plain.head? with
  | some base =>
      refine part_ends answers _ (helements _ ?_)
      exact hframe
  | none =>
      have hcurrent : Ending reuse holds (fun _ => True)
          fun _ => Render.ofOption (.ofPage none) page.current :=
        .ofOption _ page.current fun _ _ => trivial
      apply hcurrent.bind
      intro base _
      refine part_ends answers _ (helements _ ?_)
      exact hframe

end

/-- Elements end when each of them does. -/
theorem endsPage_of {elements : List Source.Element}
    (h : ∀ page : Page, page.frame = frame → ∀ element ∈ elements,
      Ending reuse holds (fun _ => True) fun worker => page.renderElement reuse worker element) :
    frame.EndsPage reuse holds elements := by
  intro page hframe
  apply Ending.task
  exact .concat elements (h page hframe)

/-- The partials of these names have ends, on every page of a frame. -/
def EndsNamed (reuse : Reuse) (holds : Store → Prop) (frame : Frame) (allowed : String → Prop) :
    Prop :=
  ∀ name, allowed name → ∀ page : Page, page.frame = frame → ∀ store elements,
    partial? store page name = some elements → frame.EndsPage reuse holds elements

variable {allowed : String → Prop}

mutual
/-- Elements end whose inclusions name partials that end. The induction goes
into the bodies and the alternatives of the blocks. -/
theorem elements_end (answers : frame.Answers reuse holds)
    (hnamed : EndsNamed reuse holds frame allowed) :
    ∀ elements, Source.IncludesOnly allowed elements →
    ∀ page : Page, page.frame = frame → ∀ element ∈ elements,
      Ending reuse holds (fun _ => True) fun worker => page.renderElement reuse worker element
  | [], _, _, _, _, member => by simp at member
  | first :: rest, h, page, hframe, element, member => by
      cases member with
      | head => exact element_ends answers hnamed first h.1 page hframe
      | tail _ member => exact elements_end answers hnamed rest h.2 page hframe element member
termination_by structural elements => elements

theorem alternative_ends (answers : frame.Answers reuse holds)
    (hnamed : EndsNamed reuse holds frame allowed) :
    ∀ alternative, Source.AlternativeIncludesOnly allowed alternative →
    ∀ elements ∈ alternative, frame.EndsPage reuse holds elements
  | none, _, _, member => by simp at member
  | some alternative, h, elements, member => by
      obtain rfl : alternative = elements := by simpa using member
      exact endsPage_of (elements_end answers hnamed alternative h)
termination_by structural alternative => alternative

theorem element_ends (answers : frame.Answers reuse holds)
    (hnamed : EndsNamed reuse holds frame allowed) :
    ∀ element, Source.ElementIncludesOnly allowed element →
    ∀ page : Page, page.frame = frame →
      Ending reuse holds (fun _ => True) fun worker => page.renderElement reuse worker element
  | .text text, _, page, _ => write_ends answers page text
  | .expression isRaw call, _, _, hframe => renderExpression_ends answers hframe isRaw call
  | .block call names hasOwnLine body alternative, h, _, hframe => by
      have hbody := endsPage_of (elements_end answers hnamed body h.1)
      have halternative := alternative_ends answers hnamed alternative h.2
      exact renderBlock_ends answers hframe ⟨hbody, halternative⟩ call hasOwnLine
  | .inclusion call indent, h, page, hframe => by
      obtain ⟨name, hname, hallowed⟩ := h
      exact renderInclusion_ends answers hframe hname (hnamed name hallowed page hframe) indent
termination_by structural element => element
end

end Page

/-- A page that includes other partials only ends whenever its calls into the
registries do. -/
theorem Source.IncludesOthers.ends {elements : List Source.Element}
    (h : Source.IncludesOthers elements) : Source.Ends elements := by
  intro reuse holds frame data answers
  have hflat : ∀ standIn, Source.IncludesOnly (fun _ => False) standIn →
      frame.EndsPage reuse holds standIn := by
    intro standIn hstandIn
    apply Page.endsPage_of
    exact Page.elements_end answers (fun _ hnever => hnever.elim) standIn hstandIn
  have hothers : frame.EndsPage reuse holds elements := by
    apply Page.endsPage_of
    apply Page.elements_end answers _ elements h
    intro name ⟨hother, hstandIn⟩ page _ store standIn hfound
    simp only [Page.partial?, hother, if_false] at hfound
    split at hfound
    · exact hflat standIn (hstandIn standIn hfound)
    · simp at hfound
  exact hothers _ rfl

end Stencil
