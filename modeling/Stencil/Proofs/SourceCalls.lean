import Stencil.Compiler
import Stencil.Proofs.ChainLinks
import Stencil.Proofs.Holdings
import Stencil.Proofs.Overlay
import Stencil.Proofs.PlainValues

/-!
Sources beside programs. A source that only includes a partial, or only calls a
helper of the registries with one value, goes through the JSON form of the
context, the source that stands in for a partial, and a page with a pen of its
own. It renders nevertheless what the program renders that does the same call by
itself, and leaves the same behind.
-/

namespace Stencil

/-- Two ends of renders: each gives the text that the other gives, each fails
where the other does, and they leave stores that hold the same. The failures may
tell of different reasons. -/
structure Render.EndsLike (x y : Outcome String × Store) : Prop where
  text : ∀ text, x.1 = .done text ↔ y.1 = .done text
  fails : (∃ e, x.1 = .failed e) ↔ ∃ e, y.1 = .failed e
  holdings : x.2.SameHoldings y.2

namespace Render.EndsLike

variable {store after after' : Store} {x y z : Outcome String × Store}

theorem symm (h : EndsLike x y) : EndsLike y x where
  text text := (h.text text).symm
  fails := h.fails.symm
  holdings := h.holdings.symm

theorem trans (h : EndsLike x y) (h' : EndsLike y z) : EndsLike x z where
  text text := (h.text text).trans (h'.text text)
  fails := h.fails.trans h'.fails
  holdings := h.holdings.trans h'.holdings

theorem of_outcome {outcome : Outcome String} (h : after.SameHoldings after') :
    EndsLike (outcome, after) (outcome, after') :=
  ⟨fun _ => Iff.rfl, Iff.rfl, h⟩

theorem failed (e e' : RenderError) (h : after.SameHoldings after') :
    EndsLike (.failed e, after) (.failed e', after') where
  text := by simp
  fails := by simp
  holdings := h

/-- Renders that are alike end alike. -/
theorem of_ends {writing : Bool} (h : Holdings.parallel.Ends writing (fun _ => Eq) x y) :
    EndsLike x y := by
  have houtcome := h.outcome_eq id
  obtain ⟨_, _, hstores⟩ := h.stores_alike id
  obtain ⟨outcome, after⟩ := x
  obtain ⟨outcome', after'⟩ := y
  obtain rfl : outcome = outcome' := houtcome
  exact of_outcome hstores.1

/-! What wraps an action ends as the action does. -/

variable (action : Render String) (store : Store)

theorem withFrame (frame : Frame) :
    EndsLike (Render.withFrame frame action store) (action (store.enter frame)) :=
  of_outcome ((Store.SameHoldings.refl _).congr rfl rfl)

theorem withPen :
    EndsLike (Render.withPen action store) (action { store with pen := {} }) :=
  of_outcome ((Store.SameHoldings.refl _).congr rfl rfl)

theorem outside : EndsLike (Page.outside action store) (action store) := by
  unfold Page.outside Render.mapError
  rcases action store with ⟨text | e | _, last⟩
  · exact of_outcome (.refl last)
  · exact failed _ _ (.refl last)
  · exact of_outcome (.refl last)

theorem part (indents : Pen → Bool) :
    EndsLike (Page.part indents action store)
      (action { store with pen := store.pen.beginPart (indents store.pen) }) := by
  simp only [Page.part, Render.bind_run, Render.look, Render.update]
  rcases action _ with ⟨text | e | _, last⟩
  · exact of_outcome ((Store.SameHoldings.refl last).congr rfl rfl)
  · exact of_outcome (.refl last)
  · exact of_outcome (.refl last)

end Render.EndsLike

/-- What a frame is besides its environment and its options makes no difference
to a partial. -/
theorem Frame.invokePartial_congr {f g : Frame} (henvironment : f.environment = g.environment)
    (hoptions : f.options = g.options) : f.invokePartial = g.invokePartial := by
  funext reuse worker name context
  unfold Frame.invokePartial Frame.partialTemplate Store.partialHome
  rw [henvironment, hoptions]

open Render

theorem Render.EndsLike.invokePartial {levels : Nat} {s t : Store} (h : s.SameHoldings t)
    (frame : Frame) (name : String) (context : Value) :
    EndsLike (frame.invokePartial {} (Task.run {} levels) name context s)
      (frame.invokePartial {} (Task.run {} levels) name context t) := by
  have hworkers := Holdings.lawful.run_alike levels
  have halike := Holdings.lawful.invokePartial_alike (w := false) hworkers (.refl frame) name
    context
  exact of_ends (halike s t ⟨h, nofun⟩)

theorem Render.EndsLike.callHelper {levels : Nat} {s t : Store} {f g : Frame}
    (h : s.SameHoldings t) (hframe : Holdings.Frames f g) (name : String)
    (scope context : Value) :
    EndsLike (f.callHelper (Task.run {} levels) name scope context (.ofFrame f) s)
      (g.callHelper (Task.run {} levels) name scope context (.ofFrame g) t) := by
  have hworkers := Holdings.lawful.run_alike levels
  have hoptions : Holdings.parallel.Options false f (.ofFrame f) (.ofFrame g) :=
    Parallel.Options.ofFrame_alike Holdings.lawful hframe
  have halike := Holdings.lawful.callHelper_alike hworkers hframe hoptions name scope context
  exact of_ends (halike s t ⟨h, nofun⟩)

/-- The names of the partials that a frame finds need no escapes where they are
written in quotes. -/
def Store.NamesPlainly (store : Store) (frame : Frame) : Prop :=
  ∀ name, (store.entry? frame name).isSome → ∀ c ∈ name.toList, c ≠ '\\' ∧ 0x20 ≤ c.toNat

namespace Page

variable {s t : Store} {page : Page} {frame : Frame} {name : String}

theorem mem_partialNames (store : Store) (frame : Frame) (name : String) :
    name ∈ partialNames store frame ↔
      (store.entry? frame name).isSome ∧ isReferable name = true := by
  unfold partialNames
  rw [List.mem_filter, mem_unionNames, mem_registryNames store.partialsOf, ← store.entry?_eq]

theorem mem_helperNames (store : Store) (frame : Frame) (name : String) :
    name ∈ helperNames store frame ↔
      (store.helper? frame name).isSome ∧ (Builtin.ofName? name).isNone := by
  unfold helperNames
  rw [List.mem_filter, mem_unionNames, mem_registryNames store.helpersOf]
  rfl

theorem contains_helperNames (store : Store) (frame : Frame) (name : String) :
    (helperNames store frame).contains name =
      ((store.helper? frame name).isSome && (Builtin.ofName? name).isNone) := by
  rw [Bool.eq_iff_iff, List.contains_iff_mem, mem_helperNames, Bool.and_eq_true]

theorem contains_partialNames (store : Store) (frame : Frame) (name : String) :
    (partialNames store frame).contains name =
      ((store.entry? frame name).isSome && isReferable name) := by
  rw [Bool.eq_iff_iff, List.contains_iff_mem, mem_partialNames, Bool.and_eq_true]

theorem not_mem_of_isReferable (h : isReferable name = true) : '"' ∉ name.toList := by
  intro member
  simp only [isReferable, Bool.and_eq_true, Bool.not_eq_true', List.any_eq_false] at h
  exact absurd (h.2 _ member) (by decide)

/-- A partial has a stand-in if its name spells a string in quotes. The stand-in
calls the dispatcher with that string. -/
theorem standIn?_eq_some_iff (hreferable : isReferable name = true)
    {elements : List Source.Element} :
    standIn? name = some elements ↔
      ∃ content, Json.Spells name.toList content ∧
        elements = standIn (String.ofList content) := by
  have hword : Source.IsWord dispatcher.toList := by decide
  have hsource : standInSource name = String.ofList (Source.openBraces ++
      Source.quotedCall dispatcher.toList name.toList) := by
    apply String.toList_inj.mp
    simp [standInSource, dispatcher, Source.quotedCall, Source.openBraces, Source.closeBraces]
  rw [standIn?, hsource,
    hword.read_quotedCall_iff (by decide) (not_mem_of_isReferable hreferable),
    String.ofList_toList]
  rfl

/-- A partial whose name needs no escapes has a stand-in, which calls the
dispatcher with that name. -/
theorem standIn?_plain (hplain : ∀ c ∈ name.toList, c ≠ '\\' ∧ 0x20 ≤ c.toNat)
    (hreferable : isReferable name = true) : standIn? name = some (standIn name) := by
  have hspells : Json.Spells name.toList name.toList := by
    refine Json.Spells.of_plain fun c member => ⟨?_, hplain c member⟩
    rintro rfl
    exact not_mem_of_isReferable hreferable member
  exact (standIn?_eq_some_iff hreferable).mpr ⟨_, hspells, by rw [String.ofList_toList]⟩

theorem isReferable_of_isIdentifier (hname : Source.IsIdentifier name) (hown : name ≠ ownName) :
    isReferable name = true := by
  have hsymbols := Source.IsWord.symbols hname
  simp only [isReferable, Bool.and_eq_true, bne_iff_ne, ne_eq, Bool.not_eq_true',
    List.any_eq_false]
  refine ⟨hown, fun c member hc => ?_⟩
  simp only [Bool.or_eq_true, beq_iff_eq] at hc
  rcases hc with (rfl | rfl) | rfl
  all_goals exact absurd (hsymbols _ member) (by decide)

/-- What a page finds under a name that a program would find it under. -/
theorem partial?_run (store : Store) (hplain : store.NamesPlainly page.frame)
    (hown : name ≠ ownName) (hreferable : isReferable name = true) :
    partial? store page name =
      if (store.entry? page.frame name).isSome then some (standIn name) else none := by
  unfold partial?
  rw [if_neg hown, contains_partialNames, hreferable, Bool.and_true]
  by_cases hfound : (store.entry? page.frame name).isSome = true
  · rw [if_pos hfound, if_pos hfound]
    exact standIn?_plain (hplain name hfound) hreferable
  · rw [if_neg hfound, if_neg hfound]

/-- A reference to a partial on a page ends as that of a program does, in a frame
with the same environment and the same options. -/
theorem inclusion_endsLike {levels : Nat} {indent : Source.Indent} {found : Found}
    {context : Value} (h : s.SameHoldings t) (hplain : s.NamesPlainly page.frame)
    (henvironment : page.frame.environment = frame.environment)
    (hoptions : page.frame.options = frame.options) (hown : name ≠ ownName)
    (hreferable : isReferable name = true) (hcurrent : page.current = some found)
    (hcontext : Value.ofJson found.value = context) :
    EndsLike
      (page.renderInclusion {} (Task.run {} (levels + 1)) (.mk (.word name) [] []) indent s)
      (frame.invokePartial {} (Task.run {} levels) name context t) := by
  have hpartial := partial?_run s hplain hown hreferable
  have hentry := h.entry?_eq henvironment hoptions name
  by_cases hfound : (s.entry? page.frame name).isSome = true
  · rw [if_pos hfound] at hpartial
    rw [inclusion_run hpartial hcurrent]
    refine (EndsLike.part _ _ _).trans ?_
    have hrun : ∀ store, Task.run {} (levels + 1) (.page (page.included found indent) (standIn name))
        store = part (fun pen => pen.indents || (false && pen.endsLine))
          (outside (page.frame.invokePartial {} (Task.run {} levels) name
            (Value.ofJson found.value))) store :=
      fun store => congrFun (standIn_run (page.included found indent) rfl) store
    rw [hrun, hcontext, Frame.invokePartial_congr henvironment hoptions]
    refine (EndsLike.part _ _ _).trans ((EndsLike.outside _ _).trans ?_)
    exact .invokePartial (h.congr rfl rfl) frame name context
  · rw [if_neg hfound] at hpartial
    have hnone : t.entry? frame name = none := by
      rw [← hentry]
      simpa using hfound
    have hprogram : frame.invokePartial {} (Task.run {} levels) name context t =
        (.failed (.missingPartial name), t) := by
      unfold Frame.invokePartial
      rw [Render.bind_run, Frame.partialTemplate_missing hnone]
    have hpage : page.renderInclusion {} (Task.run {} (levels + 1)) (.mk (.word name) [] []) indent
        s = (.failed (.ofPage none), s) := by
      simp only [renderInclusion, headName, arguments, Source.Call.head, Source.Call.arguments,
        Source.Call.named, operands, namedOperands, pure_bind, Render.bind_run, Render.look,
        Render.pure_run, hpartial]
      rfl
    rw [hprogram, hpage]
    exact .failed _ _ h

/-- A call of a helper of the registries on a page ends as that of a program
does. -/
theorem call_endsLike {levels : Nat} {path : Source.Path} {found : Found}
    {scope context : Value} (h : s.SameHoldings t) (hframe : Holdings.Frames page.frame frame)
    (hknown : name ∈ helperNames s page.frame) (hdispatcher : name ≠ dispatcher)
    (hfind : page.find path = some found) (hscope : Value.ofJson page.data = scope)
    (hcontext : Value.ofJson found.value = context) :
    EndsLike
      (page.renderExpression {} (Task.run {} levels) false (.mk (.word name) [.path path] []) s)
      (frame.callHelper (Task.run {} levels) name scope context (.ofFrame frame) t) := by
  have hcallee : callee? s page.frame name = some (.registered name) := by
    unfold callee?
    rw [if_neg hdispatcher, if_pos (List.contains_iff_mem.mpr hknown)]
  have hoperands : page.operands {} (Task.run {} levels) [.path path] = pure [found] := by
    simp only [operands, operand, hfind]
    rfl
  have hyield : page.call {} (Task.run {} levels) (.registered name) ⟨[found], []⟩ none =
      Yield.output <$> outside (page.frame.callHelper (Task.run {} levels) name scope context
        (.ofFrame page.frame)) := by
    rw [← hscope, ← hcontext]
    rfl
  have hrun : page.renderExpression {} (Task.run {} levels) false
      (.mk (.word name) [.path path] []) s =
        part (fun pen => pen.indents || (false && pen.endsLine))
          (outside (page.frame.callHelper (Task.run {} levels) name scope context
            (.ofFrame page.frame))) s := by
    simp only [renderExpression, headName, arguments, Source.Call.head, Source.Call.arguments,
      Source.Call.named, Source.Call.isBare, hoperands, namedOperands, callee, pure_bind,
      Render.bind_run, Render.look, hcallee, Render.ofOption, Render.pure_run, List.isEmpty,
      Bool.false_and, Bool.false_eq_true, if_false, hyield, renderCall_output]
  rw [hrun]
  refine (EndsLike.part _ _ _).trans ((EndsLike.outside _ _).trans ?_)
  exact .callHelper (h.congr rfl rfl) hframe name scope context

/-- A key on a page leads to the part of an object that it leads to in a
program; where there is none, both have null. -/
theorem find_toJson {fields : List (String × Value)} (h : (Value.object fields).IsPlain)
    (frame : Frame) (elements : List Source.Element) (key : String) :
    ∃ found, (Page.start frame elements (Value.object fields).toJson.1).find ⟨key, [.key key]⟩ =
        some found ∧
      Value.ofJson found.value = (field? key fields).getD .null := by
  have hfind : ∀ data, (Page.start frame elements data).find ⟨key, [.key key]⟩ =
      (Page.start frame elements data).inData [key] := fun _ => rfl
  rw [hfind]
  unfold inData
  rcases Value.follow_toJson h key with ⟨habsent, hfield⟩ | ⟨json, hfollow, hfield⟩
  · refine ⟨.missing, ?_, ?_⟩
    · simp only [start, habsent]
    · rw [hfield]
      rfl
  · refine ⟨.place json [key], ?_, ?_⟩
    · simp only [start, hfollow]
    · rw [hfield]
      rfl

/-- A page on which every partial has a stand-in ends as its elements do. -/
theorem render_endsLike {y : Outcome String × Store} {elements : List Source.Element}
    {worker : Worker} {context : Value} (hplain : s.NamesPlainly frame)
    (h : ∀ begun, begun.SameHoldings s →
      EndsLike (worker (.page (.start frame elements context.toJson.1) elements) begun) y) :
    EndsLike (Page.render worker frame elements context s) y := by
  have hstandIns : ∀ name ∈ partialNames s frame, (standIn? name).isSome := by
    intro name member
    obtain ⟨hfound, hreferable⟩ := (mem_partialNames s frame name).mp member
    rw [standIn?_plain (hplain name hfound) hreferable]
    rfl
  obtain ⟨bridged, tally, hrun⟩ := render_run elements context hstandIns
  rw [hrun]
  exact (EndsLike.withPen _ _).trans (h _ ((Store.SameHoldings.refl s).congr rfl rfl))

end Page

theorem Store.NamesPlainly.congr {s t : Store} {f g : Frame} (h : s.NamesPlainly f)
    (hsame : t.SameHoldings s) (henvironment : g.environment = f.environment)
    (hoptions : g.options = f.options) : t.NamesPlainly g := by
  intro name hfound
  rw [hsame.entry?_eq henvironment hoptions] at hfound
  exact h name hfound

namespace Template

variable {template program : Template} {context : Value} {options : RenderOptions}
  {store : Store}

/-- Templates of one environment are refused alike where too many partials are
open, and otherwise they end as what is rendered in their frames. -/
theorem render_endsLike {worker worker' : Worker}
    (henvironment : template.environment = program.environment)
    (h : ∀ s t, s.SameHoldings store → t.SameHoldings store →
      EndsLike (Frame.render ⟨template, options⟩ worker context s)
        (Frame.render ⟨program, options⟩ worker' context t)) :
    EndsLike (template.render worker context options store)
      (program.render worker' context options store) := by
  unfold Template.render
  rw [henvironment]
  split
  · exact .of_outcome (.refl _)
  · simp only [Render.note, Render.bind_run, Render.update]
    refine (EndsLike.withFrame _ _ _).trans (.trans ?_ (EndsLike.withFrame _ _ _).symm)
    apply h
    · exact (Store.SameHoldings.refl store).congr rfl rfl
    · exact (Store.SameHoldings.refl store).congr rfl rfl

/-- A template of one node ends as that node does. -/
theorem render_node (frame : Frame) {node : Node} (hspec : frame.template.spec = .nodes [node])
    (levels : Nat) :
    frame.render (Task.run {} (levels + 1)) context =
      Scene.node ⟨frame, context, context, frame.options.data, [], none⟩ {}
        (Task.run {} levels) node := by
  unfold Frame.render
  rw [hspec]
  exact Render.concat_single _ _

/-- A template of one element of a page ends as that element does. -/
theorem element_endsLike {frame : Frame} {element : Source.Element}
    {y : Outcome String × Store} (hspec : frame.template.spec = .page [element])
    (hplain : store.NamesPlainly frame) (levels : Nat)
    (h : ∀ begun, begun.SameHoldings store →
      EndsLike ((Page.start frame [element] context.toJson.1).renderElement {}
        (Task.run {} levels) element begun) y) :
    EndsLike (frame.render (Task.run {} (levels + 1)) context store) y := by
  unfold Frame.render
  rw [hspec]
  apply Page.render_endsLike hplain
  intro begun hbegun
  have hstep : Task.run {} (levels + 1)
      (.page (.start frame [element] context.toJson.1) [element]) =
        (Page.start frame [element] context.toJson.1).renderElement {} (Task.run {} levels)
          element := Render.concat_single _ _
  rw [hstep]
  exact h begun hbegun

theorem inclusion_as_program {name : String} {indent : Source.Indent}
    (hplain : store.NamesPlainly ⟨template, options⟩) (hcontext : context.IsPlain)
    (henvironment : template.environment = program.environment)
    (hname : Source.IsIdentifier name) (hown : name ≠ Page.ownName)
    (hspec : template.spec = .page [.inclusion (.mk (.word name) [] []) indent])
    (hprogram : program.spec = .nodes [.inclusion name (.this none)]) (levels : Nat) :
    EndsLike (Task.run {} (levels + 3) (.template template context options) store)
      (Task.run {} (levels + 2) (.template program context options) store) := by
  have hreferable : Page.isReferable name = true := Page.isReferable_of_isIdentifier hname hown
  apply render_endsLike henvironment
  intro s t hs ht
  have hframe : (⟨template, options⟩ : Frame).environment =
      (⟨program, options⟩ : Frame).environment := henvironment
  have hnode : (⟨program, options⟩ : Frame).render (Task.run {} (levels + 1)) context =
      (⟨program, options⟩ : Frame).invokePartial {} (Task.run {} levels) name context :=
    render_node ⟨program, options⟩ hprogram levels
  rw [hnode]
  apply element_endsLike hspec (hplain.congr hs rfl rfl)
  intro begun hbegun
  have hsame : begun.SameHoldings t := hbegun.trans (hs.trans ht.symm)
  exact Page.inclusion_endsLike hsame (hplain.congr (hbegun.trans hs) rfl rfl) hframe rfl hown
    hreferable rfl (Value.ofJson_toJson hcontext)

theorem call_as_program {name key : String} {fields : List (String × Value)}
    (hplain : store.NamesPlainly ⟨template, options⟩) (hcontext : (Value.object fields).IsPlain)
    (henvironment : template.environment = program.environment)
    (hidentity : template.identity = program.identity) (hnoop : template.noop = program.noop)
    (hkey : Source.IsIdentifier key) (hknown : (store.helper? ⟨template, options⟩ name).isSome)
    (hbuiltin : Builtin.ofName? name = none) (hdispatcher : name ≠ Page.dispatcher)
    (hspec : template.spec =
      .page [.expression false (.mk (.word name) [.path ⟨key, [.key key]⟩] [])])
    (hprogram : program.spec =
      .nodes [.call name (.this (some key)) (.mk false none none none false)]) (levels : Nat) :
    EndsLike (Task.run {} (levels + 2) (.template template (.object fields) options) store)
      (Task.run {} (levels + 2) (.template program (.object fields) options) store) := by
  apply render_endsLike henvironment
  intro s t hs ht
  have hframe : Holdings.Frames ⟨template, options⟩ ⟨program, options⟩ :=
    ⟨hidentity, henvironment, hnoop, rfl⟩
  have hnode : (⟨program, options⟩ : Frame).render (Task.run {} (levels + 1)) (.object fields) =
      (⟨program, options⟩ : Frame).callHelper (Task.run {} levels) name (.object fields)
        ((Value.object fields).at (some key)) (.ofFrame ⟨program, options⟩) :=
    render_node ⟨program, options⟩ hprogram levels
  have hat : (Value.object fields).at (some key) = (field? key fields).getD .null := by
    simp only [Value.at, Value.lookup?_of_isIdentifier hkey, Value.get?]
  rw [hnode, hat]
  apply element_endsLike hspec (hplain.congr hs rfl rfl)
  intro begun hbegun
  have hsame : begun.SameHoldings t := hbegun.trans (hs.trans ht.symm)
  have hmember : name ∈ Page.helperNames begun ⟨template, options⟩ := by
    rw [Page.mem_helperNames, (hbegun.trans hs).mirrors.helper?_eq rfl rfl, hbuiltin]
    exact ⟨hknown, rfl⟩
  have hscope : Value.ofJson (Value.object fields).toJson.1 = .object fields :=
    Value.ofJson_toJson hcontext
  obtain ⟨found, hfind, hvalue⟩ := Page.find_toJson hcontext ⟨template, options⟩
    [.expression false (.mk (.word name) [.path ⟨key, [.key key]⟩] [])] key
  exact Page.call_endsLike hsame hframe hmember hdispatcher hfind hscope hvalue

end Template

/-- Sources call what programs call, as long as the names of partials need no
escapes and nothing in the context is deferred or marked as safe. The template of
a source that includes a partial gives the text that the program gives which
invokes the partial with the context, fails where that fails, and leaves the
same behind; it takes one level more. So does the template of a source that
calls a registered helper with a part of the context, beside the program that
calls the helper with that part or null, and what the helper gives is written as
it is. The name of the helper must not start as the alternative of a block. -/
theorem Template.sources_call_as_programs (store : Store) (template : Template)
    (context : Value) (options : RenderOptions)
    (hplain : store.NamesPlainly ⟨template, options⟩) (hcontext : context.IsPlain) :
    (∀ name, Source.IsIdentifier name → name ≠ Page.ownName →
      ∃ spec, Compiler.pages.compile ("\x7b\x7b> " ++ name ++ "\x7d\x7d") = .ok spec ∧
        ∀ program : Template, program.environment = template.environment →
          program.spec = .nodes [.inclusion name (.this none)] → ∀ levels,
          EndsLike
            (Task.run {} (levels + 3) (.template { template with spec } context options) store)
            (Task.run {} (levels + 2) (.template program context options) store)) ∧
    ∀ (name key : String) (fields : List (String × Value)), context = .object fields →
      Source.IsIdentifier name → ¬ "else".toList <+: name.toList →
      Source.IsIdentifier key → key ∉ Source.reserved →
      (store.helper? ⟨template, options⟩ name).isSome → Builtin.ofName? name = none →
      name ≠ Page.dispatcher →
      ∃ spec, Compiler.pages.compile
          ("\x7b\x7b" ++ name ++ " " ++ key ++ "\x7d\x7d") = .ok spec ∧
        ∀ levels,
          EndsLike
            (Task.run {} (levels + 2) (.template { template with spec } context options) store)
            (Task.run {} (levels + 2) (.template { template with
              spec := .nodes [.call name (.this (some key)) (.mk false none none none false)] }
                context options) store) := by
  have hcompile : ∀ source elements, Source.read? source = some elements →
      Compiler.pages.compile source = .ok (.page elements) := by
    intro source elements hread
    simp only [Compiler.compile, Compiler.pages, hread]
  constructor
  · intro name hname hown
    refine ⟨_, hcompile _ _ (Source.read_inclusion hname), ?_⟩
    intro program henvironment hprogram levels
    apply inclusion_as_program
    · exact hplain.congr (.refl store) rfl rfl
    · exact hcontext
    · exact henvironment.symm
    · exact hname
    · exact hown
    · rfl
    · exact hprogram
  · rintro name key fields rfl hname helse hkey hfree hknown hbuiltin hdispatcher
    refine ⟨_, hcompile _ _ (Source.read_call hname helse hkey hfree), fun levels => ?_⟩
    apply call_as_program
    · exact hplain.congr (.refl store) rfl rfl
    · exact hcontext
    · rfl
    · rfl
    · rfl
    · exact hkey
    · exact hknown
    · exact hbuiltin
    · exact hdispatcher
    · rfl
    · rfl

namespace Shouting

def environment : Environment := ⟨0, 0, {}, some .pages, .standard⟩

def template : Template := ⟨0, environment, .nodes [], ⟨0, [], none, []⟩⟩

/-- A helper under two names, and a partial that is given as source. -/
def store : Store :=
  ((Store.empty.registerHelper 0 "shout"
      ⟨.nodes [.escaped (.this none), .text "!"], none⟩).registerHelper 0 "elseshout"
    ⟨.nodes [.escaped (.this none), .text "!"], none⟩).registerPartial 0 "p"
      (.source "<\x7b\x7bname\x7d\x7d>")

def context : Value := .object [("name", .string "<A>")]

/-- The program that calls a helper with the name in the context. -/
def program (helper : String) : Spec :=
  .nodes [.call helper (.this (some "name")) (.mk false none none none false)]

theorem names_plainly : store.NamesPlainly ⟨template, {}⟩ := by
  intro name hfound
  have hentry : store.entry? ⟨template, {}⟩ name = (store.partialsOf 0).get? name := rfl
  rw [hentry, store, Store.get?_registerPartial] at hfound
  by_cases hname : name = "p"
  · subst hname
    simp
  · rw [if_neg fun h => hname h.2] at hfound
    cases hfound

end Shouting

/-- A partial and a helper that a source calls show what they show in a
program. -/
theorem Template.sources_call_as_programs_shouting :
    (∃ spec, Compiler.pages.compile ("\x7b\x7b> " ++ "p" ++ "\x7d\x7d") = .ok spec ∧
      (Task.run {} 9
        (.template { Shouting.template with spec } Shouting.context {}) Shouting.store).1 =
          .done "<&lt;A&gt;>") ∧
    ∃ spec, Compiler.pages.compile ("\x7b\x7b" ++ "shout" ++ " " ++ "name" ++ "\x7d\x7d") =
        .ok spec ∧
      (Task.run {} 5
        (.template { Shouting.template with spec } Shouting.context {}) Shouting.store).1 =
          .done "&lt;A&gt;!" := by
  have hplain : Shouting.context.IsPlain := ⟨trivial, trivial⟩
  have hcalls := Template.sources_call_as_programs Shouting.store Shouting.template
    Shouting.context {} Shouting.names_plainly hplain
  constructor
  · obtain ⟨spec, hspec, hends⟩ := hcalls.1 "p" (by decide) (by decide)
    have hlike := hends
      { Shouting.template with spec := .nodes [.inclusion "p" (.this none)] } rfl rfl 6
    refine ⟨spec, hspec, (hlike.text _).mpr ?_⟩
    decide +kernel
  · obtain ⟨spec, hspec, hends⟩ := hcalls.2 "shout" "name" _ rfl (by decide) (by decide)
      (by decide) (by decide) (by decide +kernel) (by decide +kernel) (by decide)
    refine ⟨spec, hspec, ((hends 3).text _).mpr ?_⟩
    decide +kernel

/-- A source cannot call a helper whose name starts as the alternative of a
block, though a program can. -/
theorem Template.else_calls_no_helper :
    Source.IsIdentifier "elseshout" ∧ "elseshout" ∉ Source.reserved ∧
    (Shouting.store.helper? ⟨Shouting.template, {}⟩ "elseshout").isSome ∧
    Builtin.ofName? "elseshout" = none ∧ "elseshout" ≠ Page.dispatcher ∧
    Source.IsIdentifier "name" ∧ "name" ∉ Source.reserved ∧
    Compiler.pages.compile ("\x7b\x7b" ++ "elseshout" ++ " " ++ "name" ++ "\x7d\x7d") =
      .error .grammar ∧
    (Task.run {} 5 (.template { Shouting.template with spec := Shouting.program "elseshout" }
      Shouting.context {}) Shouting.store).1 = .done "&lt;A&gt;!" := by
  refine ⟨by decide, by decide, ?_, ?_, by decide, by decide, by decide, ?_, ?_⟩
  · decide +kernel
  · decide +kernel
  · cbv
  · decide +kernel

end Stencil
