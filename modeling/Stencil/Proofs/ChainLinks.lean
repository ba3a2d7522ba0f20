import Mathlib
import Stencil.Compiler
import Stencil.Proofs.Chain

/-!
What the links of a chain are made of. Nodes relay a partial when they refer to
it and nothing else in them fails; a page does when it has only text around the
reference, for the stand-in of the partial passes it on to the registries.
-/

namespace Stencil

/-- What an outcome outside a page is to the page: a failure there is the reason
why the page fails. -/
def Outcome.outside : Outcome String → Outcome String
  | .failed e => .failed (.ofPage (some e.message))
  | outcome => outcome

namespace Render.EndsIn

variable {action : Nat → Render String} {store after : Store}

theorem withPen {outcome : Outcome String}
    (h : EndsIn action { store with pen := {} } (outcome, after)) :
    EndsIn (fun levels => Render.withPen (action levels)) store
      (outcome, { after with pen := store.pen }) := by
  obtain ⟨least, hleast⟩ := h
  refine ⟨least, fun levels hlevels => ?_⟩
  simp only [Render.withPen, hleast levels hlevels]

/-- A part of a page ends as what it is a part of; only the pen may differ. -/
theorem part {outcome : Outcome String} (store : Store) (indents : Pen → Bool)
    (h : EndsIn action { store with pen := store.pen.beginPart (indents store.pen) }
      (outcome, after)) :
    ∃ pen, EndsIn (fun levels => Page.part indents (action levels)) store
      (outcome, { after with pen }) := by
  obtain ⟨least, hleast⟩ := h
  cases outcome with
  | done text =>
      refine ⟨store.pen.endPart after.pen, least, fun levels hlevels => ?_⟩
      simp only [Page.part, Render.bind_run, Render.look, Render.update, hleast levels hlevels]
      rfl
  | failed e =>
      refine ⟨after.pen, least, fun levels hlevels => ?_⟩
      simp only [Page.part, Render.bind_run, Render.look, Render.update, hleast levels hlevels]
  | exhausted =>
      refine ⟨after.pen, least, fun levels hlevels => ?_⟩
      simp only [Page.part, Render.bind_run, Render.look, Render.update, hleast levels hlevels]

theorem outside {outcome : Outcome String} (h : EndsIn action store (outcome, after)) :
    EndsIn (fun levels => Page.outside (action levels)) store (outcome.outside, after) := by
  obtain ⟨least, hleast⟩ := h
  refine ⟨least, fun levels hlevels => ?_⟩
  simp only [Page.outside, Render.mapError, hleast levels hlevels]
  cases outcome with
  | done text => rfl
  | failed e => rfl
  | exhausted => rfl

end Render.EndsIn

namespace Surroundings

variable {around : Surroundings}

/-- Nodes at the top of a template that do not fail, and leave the chain as it
is. -/
def Harmless (around : Surroundings) (nodes : List Node) : Prop :=
  ∀ frame context store, around.Holds frame → around.Ready store →
    ∃ text after, around.Ready after ∧
      Render.EndsIn (fun levels => Task.run {} levels
        (.nodes ⟨frame, context, context, frame.options.data, [], none⟩ nodes)) store
        (.done text, after)

/-- An expression there that does neither. -/
def HarmlessExpr (around : Surroundings) (e : Expr) : Prop :=
  ∀ frame context store, around.Holds frame → around.Ready store →
    ∃ v after, around.Ready after ∧
      Render.EndsIn (fun levels =>
        Scene.value ⟨frame, context, context, frame.options.data, [], none⟩ (Task.run {} levels) e)
        store (.done v, after)

theorem settles_nodes {nodes : List Node} (h : around.Harmless nodes) :
    around.Settles (.nodes nodes) := by
  intro frame context store hholds hspec hready
  have hrender : ∀ levels, frame.render (Task.run {} levels) context =
      Task.run {} levels
        (.nodes ⟨frame, context, context, frame.options.data, [], none⟩ nodes) := by
    intro levels
    unfold Frame.render
    rw [hspec]
  simp only [hrender]
  exact h frame context store hholds hready

/-- Nodes that refer to one partial, with nothing around that reference that
fails. -/
theorem relays_inclusion {before after : List Node} {name : String} {e : Expr}
    (hbefore : around.Harmless before) (he : around.HarmlessExpr e)
    (hafter : around.Harmless after) :
    around.Relays (.nodes (before ++ .inclusion name e :: after)) name := by
  intro frame context store hholds hspec hready
  generalize hscene : (⟨frame, context, context, frame.options.data, [], none⟩ : Scene) = scene
  have hrender : ∀ levels, frame.render (Task.run {} levels) context =
      Task.run {} levels (.nodes scene (before ++ .inclusion name e :: after)) := by
    intro levels
    unfold Frame.render
    rw [hspec, ← hscene]
  obtain ⟨first, s₁, hs₁, hfirst⟩ := hbefore frame context store hholds hready
  obtain ⟨inner, s₂, hs₂, hinner⟩ := he frame context s₁ hholds hs₁
  rw [hscene] at hfirst hinner
  have hframe : scene.frame = frame := by rw [← hscene]
  -- What the levels make of the nodes, one part after another.
  have hsteps : ∀ levels,
      Task.step {} (Task.run {} levels) (.nodes scene (before ++ .inclusion name e :: after)) =
        Task.step {} (Task.run {} levels) (.nodes scene before) >>= fun a =>
          scene.value (Task.run {} levels) e >>= fun v =>
            frame.invokePartial {} (Task.run {} levels) name v >>= fun b =>
              (fun c => a ++ (b ++ c)) <$>
                Task.step {} (Task.run {} levels) (.nodes scene after) := by
    intro levels
    simp only [Task.step, Render.concat_append, Render.concat_cons, map_bind, Functor.map_map,
      Scene.node, hframe, Render.bind_bind_run]
  have hhead : Render.EndsIn (fun levels => Task.step {} (Task.run {} levels)
      (.nodes scene before)) store (.done first, s₁) := hfirst.unstep
  refine ⟨inner, s₂, hs₂, ?_, ?_⟩
  · intro text found hfound hinvoked
    obtain ⟨last, s₄, hs₄, hlast⟩ := hafter frame context found hholds hfound
    rw [hscene] at hlast
    refine ⟨first ++ (text ++ last), s₄, hs₄, ?_⟩
    simp only [hrender]
    apply Render.EndsIn.step
    simp only [hsteps]
    exact hhead.bind (hinner.bind (hinvoked.bind (hlast.unstep.map _)))
  · intro e found hinvoked
    refine ⟨e, found, .itself, ?_⟩
    simp only [hrender]
    apply Render.EndsIn.step
    simp only [hsteps]
    exact hhead.bind (hinner.bind hinvoked.bind_failed)

/-- Texts are harmless. -/
theorem harmless_texts (texts : List String) : around.Harmless (texts.map .text) := by
  intro frame context store _ hready
  refine ⟨texts.foldr (· ++ ·) "", store, hready, Render.EndsIn.step (.always fun levels => ?_)⟩
  generalize (⟨frame, context, context, frame.options.data, [], none⟩ : Scene) = scene
  have hconcat : Render.concat (scene.node {} (Task.run {} levels)) (texts.map .text) =
      pure (texts.foldr (· ++ ·) "") := by
    induction texts with
    | nil => rfl
    | cons text rest ih =>
        rw [List.map_cons, Render.concat_cons, ih]
        rfl
  simp only [Task.step, hconcat, Render.pure_run]

/-- So is the context itself, or a part of it. -/
theorem harmlessExpr_this (path : Option String) : around.HarmlessExpr (.this path) := by
  intro frame context store _ hready
  exact ⟨context.at path, store, hready, .always fun _ => rfl⟩

/-- The names of the partials that the pages of a chain can refer to. -/
def partialNames (around : Surroundings) : List String :=
  (Page.unionNames (around.names around.environment.partials)
    ((around.partials.map around.names).getD [])).filter Page.isReferable

theorem Ready.partialNames_eq {store : Store} {frame : Frame} (h : around.Ready store)
    (hholds : around.Holds frame) : Page.partialNames store frame = around.partialNames := by
  unfold Page.partialNames partialNames
  simp only [hholds.environment, hholds.partials, h.names]

end Surroundings

namespace Page

variable {page : Page} {worker : Worker} {store : Store} {name : String}

def standIn (name : String) : List Source.Element :=
  [.expression false
    (.mk (.word dispatcher) [.literal (.string name), .path ⟨"this", []⟩] [])]

theorem checkPartials_run {names : List String} (h : ∀ name ∈ names, (standIn? name).isSome) :
    checkPartials names = pure () := by
  induction names with
  | nil => rfl
  | cons name rest ih =>
      have hname := h name List.mem_cons_self
      have hrest := ih fun other member => h other (List.mem_cons_of_mem _ member)
      unfold checkPartials
      cases hstandIn : standIn? name with
      | none =>
          rw [hstandIn] at hname
          cases hname
      | some elements => exact hrest

/-- A page on which every partial has a stand-in is written with a pen of its
own. -/
theorem render_run {frame : Frame} (elements : List Source.Element) (context : Value)
    (h : ∀ name ∈ partialNames store frame, (standIn? name).isSome) :
    ∃ bridged tally, ∀ worker, Page.render worker frame elements context store =
      Render.withPen (worker (.page (.start frame elements context.toJson.1) elements))
        ((store.note bridged).tally tally) := by
  refine ⟨.bridged (helperNames store frame).length (partialNames store frame).length,
    context.toJson.2, fun worker => ?_⟩
  simp only [Page.render, Render.bind_run, Render.look, checkPartials_run h, Render.pure_run,
    Render.note, Render.update]

/-- Texts on a page move nothing but the pen. -/
theorem texts_run (page : Page) (texts : List String) (store : Store) :
    ∃ text pen, ∀ worker, Render.concat (page.renderElement {} worker) (texts.map .text) store =
      (.done text, { store with pen }) := by
  induction texts generalizing store with
  | nil => exact ⟨"", store.pen, fun _ => rfl⟩
  | cons text rest ih =>
      obtain ⟨more, pen, hmore⟩ :=
        ih { store with pen := (store.pen.write page.indent text).2 }
      refine ⟨(store.pen.write page.indent text).1 ++ more, pen, fun worker => ?_⟩
      have hwrite : page.renderElement {} worker (.text text) store =
          (.done (store.pen.write page.indent text).1,
            { store with pen := (store.pen.write page.indent text).2 }) := rfl
      rw [List.map_cons, Render.concat_cons, Render.bind_run, hwrite]
      show ((_ ++ ·) <$> Render.concat _ _) _ = _
      rw [← bind_pure_comp, Render.bind_run, hmore]
      rfl

/-- What a helper or a partial of the registries gives stands there already. -/
theorem renderCall_output (page : Page) (hasOwnLine isRaw : Bool) (action : Render String) :
    page.renderCall hasOwnLine isRaw (Yield.output <$> action) =
      part (fun pen => pen.indents || (hasOwnLine && pen.endsLine)) action := by
  unfold renderCall
  simp only [map_eq_pure_bind, bind_assoc, pure_bind, bind_pure]

/-- A stand-in passes its partial on to the registries, with the value of the
scope in which it stands. -/
theorem standIn_run (page : Page) {reuse : Reuse} {own : Json}
    (hown : (page.scopeAt 0).own = some own) :
    Render.concat (page.renderElement reuse worker) (standIn name) =
      part (fun pen => pen.indents || (false && pen.endsLine))
        (outside (page.frame.invokePartial reuse worker name (Value.ofJson own))) := by
  have hfind : page.find ⟨"this", []⟩ = some (.derived own) := by
    show page.inScope (page.scopeAt 0) [] = _
    unfold inScope
    rw [hown]
    rfl
  have hcallee : ∀ store, callee? store page.frame dispatcher = some .dispatcher :=
    fun _ => if_pos rfl
  have hoperands : page.operands reuse worker [.literal (.string name), .path ⟨"this", []⟩] =
      pure [.literal (.string name), .derived own] := by
    simp only [operands, operand, hfind]
    rfl
  have hyield : page.call reuse worker .dispatcher
      ⟨[.literal (.string name), .derived own], []⟩ none = Yield.output <$>
        outside (page.frame.invokePartial reuse worker name (Value.ofJson own)) := rfl
  rw [standIn, Render.concat_single]
  funext store
  simp only [renderElement, renderExpression, headName, arguments, Source.Call.head,
    Source.Call.arguments, Source.Call.named, Source.Call.isBare, hoperands, namedOperands, callee,
    pure_bind, Render.bind_run, Render.look, hcallee, Render.ofOption, Render.pure_run,
    List.isEmpty, Bool.false_and, Bool.false_eq_true, if_false, hyield, renderCall_output]

/-- The page inside an inclusion without arguments. -/
def included (page : Page) (found : Found) (indent : Source.Indent) : Page :=
  { page.enterWithin { own := some (found.value.merge []) } with
    indent := page.indent ++ indent.blanks }

theorem inclusion_run {indent : Source.Indent} {elements : List Source.Element} {found : Found}
    (hpartial : partial? store page name = some elements) (hcurrent : page.current = some found) :
    page.renderInclusion {} worker (.mk (.word name) [] []) indent store =
      part (fun pen => indent.hasOwnLine && (pen.endsLine || !indent.blanks.isEmpty))
        (worker (.page (page.included found indent) elements)) store := by
  simp only [renderInclusion, headName, arguments, Source.Call.head, Source.Call.arguments,
    Source.Call.named, operands, namedOperands, pure_bind, Render.bind_run, Render.look, hpartial,
    hcurrent, Render.ofOption, Render.pure_run, List.head?_nil, List.map_nil]
  rfl

/-- An inclusion ends as the partial does to which its stand-in refers, begun
with another pen. -/
theorem endsIn_inclusion (indent : Source.Indent) {base : Found}
    (hpartial : partial? store page name = some (standIn name))
    (hcurrent : page.current = some base) :
    ∃ pen, ∀ outcome found,
      Render.EndsIn (fun levels => page.frame.invokePartial {} (Task.run {} levels) name
        (Value.ofJson (base.value.merge []))) { store with pen } (outcome, found) →
      ∃ pen', Render.EndsIn (fun levels =>
          page.renderInclusion {} (Task.run {} levels) (.mk (.word name) [] []) indent) store
        (outcome.outside, { found with pen := pen' }) := by
  let indents : Pen → Bool := fun pen =>
    indent.hasOwnLine && (pen.endsLine || !indent.blanks.isEmpty)
  let indents' : Pen → Bool := fun pen => pen.indents || (false && pen.endsLine)
  let opened := store.pen.beginPart (indents store.pen)
  refine ⟨opened.beginPart (indents' opened), fun outcome found h => ?_⟩
  obtain ⟨pen, hpart⟩ := h.outside.part { store with pen := opened } indents'
  have htask : Render.EndsIn (fun levels =>
      Task.run {} levels (.page (page.included base indent) (standIn name)))
      { store with pen := opened } (outcome.outside, { found with pen }) := by
    apply Render.EndsIn.step
    exact hpart.congr fun levels =>
      congrFun (standIn_run (page.included base indent) rfl) _
  obtain ⟨pen', hinside⟩ := htask.part store indents
  exact ⟨pen', hinside.congr fun levels => inclusion_run hpartial hcurrent⟩

end Page

namespace Surroundings

variable {around : Surroundings}

/-- A page ends as its elements do, which are written with a pen of their own. -/
theorem endsIn_page {frame : Frame} {elements : List Source.Element} {store : Store}
    (context : Value) (hholds : around.Holds frame)
    (hspec : frame.template.spec = .page elements) (hready : around.Ready store)
    (hstandIns : ∀ name ∈ around.partialNames, (Page.standIn? name).isSome) :
    ∃ begun, around.Ready begun ∧ ∀ outcome last,
      Render.EndsIn (fun levels => Task.step {} (Task.run {} levels)
        (.page (.start frame elements context.toJson.1) elements)) begun (outcome, last) →
      Render.EndsIn (fun levels => frame.render (Task.run {} levels) context) store
        (outcome, { last with pen := store.pen }) := by
  rw [← hready.partialNames_eq hholds] at hstandIns
  obtain ⟨bridged, tally, hrender⟩ := Page.render_run elements context hstandIns
  refine ⟨{ (store.note bridged).tally tally with pen := {} }, hready.congr rfl rfl, ?_⟩
  intro outcome last hends
  refine (Render.EndsIn.withPen hends.step).congr fun levels => ?_
  unfold Frame.render
  rw [hspec]
  exact hrender _

/-- A page of text renders without failing. -/
theorem settles_page {texts : List String}
    (hstandIns : ∀ name ∈ around.partialNames, (Page.standIn? name).isSome) :
    around.Settles (.page (texts.map .text)) := by
  intro frame context store hholds hspec hready
  obtain ⟨begun, hbegun, hwhole⟩ := endsIn_page context hholds hspec hready hstandIns
  obtain ⟨text, pen, htexts⟩ :=
    (Page.start frame (texts.map .text) context.toJson.1).texts_run texts begun
  have hafter : around.Ready { begun with pen := store.pen } := hbegun.congr rfl rfl
  refine ⟨text, _, hafter, hwhole _ { begun with pen } ?_⟩
  exact .always fun levels => htexts _

/-- A page that refers to one partial, with nothing but text around that
reference. -/
theorem relays_page (before after : List String) {name : String} (indent : Source.Indent)
    (hname : name ∈ around.partialNames)
    (hstandIns : ∀ other ∈ around.partialNames, (Page.standIn? other).isSome)
    (hstandIn : Page.standIn? name = some (Page.standIn name)) :
    around.Relays (.page (before.map .text ++
      .inclusion (.mk (.word name) [] []) indent :: after.map .text)) name := by
  intro frame context store hholds hspec hready
  generalize helements : (before.map .text ++
    .inclusion (.mk (.word name) [] []) indent :: after.map .text :
      List Source.Element) = elements at hspec
  obtain ⟨begun, hbegun, hwhole⟩ := endsIn_page context hholds hspec hready hstandIns
  generalize hpage : Page.start frame elements context.toJson.1 = page at hwhole
  have hframe : page.frame = frame := by rw [← hpage]; rfl
  have hcurrent : page.current = some (.place page.data []) := by rw [← hpage]; rfl
  obtain ⟨first, pen, hfirst⟩ := page.texts_run before begun
  have hpartial : Page.partial? { begun with pen } page name = some (Page.standIn name) := by
    have hreferable := (List.mem_filter.mp hname).2
    have hown : name ≠ Page.ownName := by
      rintro rfl
      cases hreferable
    have hnames : Page.partialNames { begun with pen } frame = around.partialNames :=
      Ready.partialNames_eq (hbegun.congr rfl rfl) hholds
    unfold Page.partial?
    rw [if_neg hown, hframe, hnames, if_pos (List.contains_iff_mem.mpr hname), hstandIn]
  obtain ⟨pen', hinclusion⟩ := Page.endsIn_inclusion indent hpartial hcurrent
  rw [hframe] at hinclusion
  -- What the levels make of the page, one part after another.
  have hsteps : ∀ levels,
      Task.step {} (Task.run {} levels) (.page page elements) =
        Render.concat (page.renderElement {} (Task.run {} levels)) (before.map .text) >>= fun a =>
          page.renderInclusion {} (Task.run {} levels) (.mk (.word name) [] []) indent >>= fun b =>
            (fun c => a ++ (b ++ c)) <$>
              Render.concat (page.renderElement {} (Task.run {} levels)) (after.map .text) := by
    intro levels
    rw [← helements]
    simp only [Task.step, Render.concat_append, Render.concat_cons, map_bind, Functor.map_map,
      Page.renderElement]
  have hhead : Render.EndsIn (fun levels =>
      Render.concat (page.renderElement {} (Task.run {} levels)) (before.map .text)) begun
      (.done first, { begun with pen }) := .always fun levels => hfirst _
  have hready' : around.Ready { begun with pen := pen' } := hbegun.congr rfl rfl
  refine ⟨Value.ofJson (page.data.merge []), _, hready', ?_, ?_⟩
  · intro text found hfound hinvoked
    obtain ⟨pen'', hdone⟩ := hinclusion _ _ hinvoked
    obtain ⟨last, pen₃, hlast⟩ := page.texts_run after { found with pen := pen'' }
    have hready'' : around.Ready { found with pen := store.pen } := hfound.congr rfl rfl
    refine ⟨first ++ (text ++ last), _, hready'',
      hwhole _ { found with pen := pen₃ } ?_⟩
    simp only [hsteps]
    exact hhead.bind (hdone.bind (.map _ (.always fun levels => hlast _)))
  · intro e found hinvoked
    obtain ⟨pen'', hfailed⟩ := hinclusion _ _ hinvoked
    refine ⟨_, _, .page .itself, hwhole _ { found with pen := pen'' } ?_⟩
    simp only [hsteps]
    exact hhead.bind hfailed.bind_failed

/-- Chains that are written plainly: each template is text with one reference to
the next partial, be it nodes or a page. -/
inductive Plain (around : Surroundings) : Nat → Spec → Prop
  | nodes (texts : List String) : Plain around 0 (.nodes (texts.map .text))
  | page (texts : List String) : Plain around 0 (.page (texts.map .text))
  | nodesLink {n : Nat} {next : Spec} {name : String} (before after : List String)
      (path : Option String) (registered : (name, next) ∈ around.links)
      (rest : Plain around n next) :
      Plain around (n + 1)
        (.nodes (before.map .text ++ .inclusion name (.this path) :: after.map .text))
  | pageLink {n : Nat} {next : Spec} {name : String} (before after : List String)
      (indent : Source.Indent) (registered : (name, next) ∈ around.links)
      (referable : name ∈ around.partialNames)
      (readable : Page.standIn? name = some (Page.standIn name)) (rest : Plain around n next) :
      Plain around (n + 1) (.page (before.map .text ++
        .inclusion (.mk (.word name) [] []) indent :: after.map .text))

theorem Plain.straight {n : Nat} {spec : Spec}
    (hstandIns : ∀ name ∈ around.partialNames, (Page.standIn? name).isSome)
    (h : around.Plain n spec) : around.Straight n spec := by
  induction h with
  | nodes texts => exact .last (settles_nodes (harmless_texts texts))
  | page texts => exact .last (settles_page hstandIns)
  | nodesLink before after path registered _ ih =>
      refine .link (relays_inclusion ?_ ?_ ?_) registered ih
      · exact harmless_texts before
      · exact harmlessExpr_this path
      · exact harmless_texts after
  | pageLink before after indent registered referable readable _ ih =>
      exact .link (relays_page before after indent referable hstandIns readable) registered ih

end Surroundings

/-- How partials nest. Every frame that a render opens is some number of
partials deep, and its options tell that number; a reference to a partial that
would lie deeper than its settings allow is refused with nothing of the partial
rendered; and so a straight chain of partials renders exactly when it is no
longer than that. -/
theorem Template.nests_partials :
    (∀ (template : Template) (levels : Nat) (context : Value) (options : RenderOptions)
        (store : Store), options.depth = 0 →
      ∃ opened,
        (Task.run {} levels (.template template context options) store).2.visits.toList =
          store.visits.toList ++ opened ∧
        (∀ visit ∈ opened, ∃ n, visit.Deep opened store.frames n) ∧
        ∀ n (visit : Visit), visit.Deep opened store.frames n → visit.Nested options n) ∧
    (∀ (frame : Frame) (levels : Nat) (name : String) (context : Value) (store found : Store)
        (template : Template),
      frame.partialTemplate {} name store = (.done template, found) →
      template.environment.settings.maxPartialDepth < frame.options.depth + 1 →
      frame.invokePartial {} (Task.run {} (levels + 1)) name context store =
        (.failed (.tooDeep (frame.options.depth + 1)
            template.environment.settings.maxPartialDepth),
          found.note (.depthExceeded (frame.options.depth + 1)
            template.environment.settings.maxPartialDepth))) ∧
    ∀ (around : Surroundings) (n : Nat) (template : Template) (context : Value)
        (options : RenderOptions) (store : Store),
      around.Straight n template.spec → around.Holds ⟨template, options⟩ →
      options.depth = 0 → around.Ready store →
      let limit := around.environment.settings.maxPartialDepth
      let render := fun levels => Task.run {} levels (.template template context options)
      ((∃ text after, Render.EndsIn render store (.done text, after)) ↔ n ≤ limit) ∧
      (limit < n → ∃ told after, (RenderError.tooDeep (limit + 1) limit).Tells told ∧
        Render.EndsIn render store (.failed told, after)) := by
  refine ⟨?_, ?_, ?_⟩
  · intro template levels context options store hroot
    exact template.render_nested levels context options hroot store
  · intro frame levels name context store found template hfound hdeep
    exact frame.invokePartial_refused {} levels name context hfound hdeep
  · intro around n template context options store hstraight hholds hroot hready limit render
    have hfails : limit < n → ∃ told after, (RenderError.tooDeep (limit + 1) limit).Tells told ∧
        Render.EndsIn render store (.failed told, after) := by
      intro hlonger
      have hlimit : limit = around.environment.settings.maxPartialDepth := rfl
      exact hstraight.fails context hholds rfl hready (by omega) (by omega)
    refine ⟨⟨?_, ?_⟩, hfails⟩
    · rintro ⟨text, after, hdone⟩
      rcases Nat.lt_or_ge limit n with hlonger | hwithin
      · obtain ⟨told, last, _, hfailed⟩ := hfails hlonger
        cases hdone.unique hfailed
      · exact hwithin
    · intro hwithin
      obtain ⟨text, after, _, hends⟩ :=
        hstraight.renders context hholds rfl hready (by omega)
      exact ⟨text, after, hends⟩

namespace PageChain

/-- An environment that reads sources as pages. -/
def environment (limit : Nat) : Environment :=
  ⟨0, 0, { maxPartialDepth := limit }, some .pages, .standard⟩

/-- A chain of two partials: nodes refer to a page, and the page to a text. -/
def around (limit : Nat) : Surroundings where
  environment := environment limit
  helpers := none
  partials := none
  registered := .empty
  names registry := if registry = 0 then ["page", "text"] else []
  links := [
    ("page", .page (["["].map .text ++
      .inclusion (.mk (.word "text") [] []) {} :: ["]"].map .text)),
    ("text", .page (["end"].map .text))]

def store : Store :=
  (Store.empty.registerPartial 0 "page" (.source "[\x7b\x7b> text\x7d\x7d]")).registerPartial 0
    "text" (.source "end")

def template (limit : Nat) : Template :=
  ⟨0, environment limit,
    .nodes ([].map .text ++ .inclusion "page" (.this none) :: [].map .text), ⟨0, [], none, []⟩⟩

theorem straight (limit : Nat) : (around limit).Straight 2 (template limit).spec := by
  have hnames : (around limit).partialNames = ["page", "text"] := by
    show (Page.unionNames ["page", "text"] []).filter Page.isReferable = _
    decide +kernel
  have hstandIns : ∀ name ∈ (around limit).partialNames, (Page.standIn? name).isSome := by
    rw [hnames]
    decide +kernel
  have htext : "text" ∈ (around limit).partialNames := by
    rw [hnames]
    decide
  have hreadable : Page.standIn? "text" = some (Page.standIn "text") := by cbv
  have hlast : ("text", _) ∈ (around limit).links := List.mem_cons_of_mem _ List.mem_cons_self
  apply Surroundings.Plain.straight hstandIns
  apply Surroundings.Plain.nodesLink [] [] none List.mem_cons_self
  apply Surroundings.Plain.pageLink ["["] ["]"] {} hlast htext hreadable
  exact .page ["end"]

theorem entry_page {limit : Nat} {frame : Frame} (hholds : (around limit).Holds frame) :
    store.entry? frame "page" = some (.source "[\x7b\x7b> text\x7d\x7d]") ∧
      store.entry? frame "text" = some (.source "end") := by
  have henvironment : frame.environment.partials = 0 := by
    rw [hholds.environment]
    rfl
  have hnone : frame.options.partials = none := hholds.partials
  have hhome : ∀ name, store.partialHome frame name = 0 := by
    intro name
    unfold Store.partialHome
    rw [hnone, henvironment]
  unfold Store.entry?
  rw [hhome, hhome]
  exact ⟨rfl, rfl⟩

theorem ready (limit : Nat) : (around limit).Ready store where
  helpers := rfl
  names := by
    intro registry
    by_cases hregistry : registry = 0
    · subst hregistry
      rfl
    · simp only [store, Store.partialsOf_registerPartial, hregistry, if_false, around]
      rfl
  links := by
    intro link member frame hholds
    obtain ⟨hpage, htext⟩ := entry_page hholds
    have hread : Source.read? "[\x7b\x7b> text\x7d\x7d]" = some (["["].map .text ++
        .inclusion (.mk (.word "text") [] []) {} :: ["]"].map .text) := by cbv
    have hread' : Source.read? "end" = some (["end"].map .text) := by cbv
    simp only [around, List.mem_cons, List.not_mem_nil, or_false] at member
    rcases member with rfl | rfl
    · refine ⟨_, hpage, .source _ rfl fun attempts => ?_⟩
      simp only [Compiler.pages, hread]
    · refine ⟨_, htext, .source _ rfl fun attempts => ?_⟩
      simp only [Compiler.pages, hread']

end PageChain

/-- Two partials inside each other are too many where one is the limit, and not
where two are. -/
theorem Template.nests_partials_twice :
    (∃ text after, Render.EndsIn
      (fun levels => Task.run {} levels (.template (PageChain.template 2) .null {}))
      PageChain.store (.done text, after)) ∧
    ¬ ∃ text after, Render.EndsIn
      (fun levels => Task.run {} levels (.template (PageChain.template 1) .null {}))
      PageChain.store (.done text, after) := by
  have hends : ∀ limit, (∃ text after, Render.EndsIn
      (fun levels => Task.run {} levels (.template (PageChain.template limit) .null {}))
      PageChain.store (.done text, after)) ↔ 2 ≤ limit := fun limit =>
    (Template.nests_partials.2.2 (PageChain.around limit) 2 (PageChain.template limit) .null {}
      PageChain.store (PageChain.straight limit) ⟨rfl, rfl, rfl⟩ rfl (PageChain.ready limit)).1
  rw [hends 2, hends 1]
  omega

end Stencil
