import Stencil.Proofs.Likeness.Helpers

/-!
Pages of two runtimes side by side. What the paths of a page lead to does not
depend on its frame, and the registries enter only through the names that a
page can refer to, its helpers and its partials. So pages that stand for each
other show the same text, and the pens that write them stay equal.
-/

namespace Stencil

namespace Parallel

variable {World : Type} {par : Parallel World} {reuse reuse' : Reuse} {w : World}
  {p q : Page} {worker worker' : Worker}

namespace Pages

theorem fromLevel_eq (hpage : par.Pages w p q) (steps : List Source.Step) (level : Nat) :
    p.fromLevel level steps = q.fromLevel level steps := by
  obtain ⟨f, elements, data, scopes, indent⟩ := p
  obtain ⟨g, elements', data', scopes', indent'⟩ := q
  obtain ⟨_, _, helements, hdata, hscopes, hindent⟩ := hpage
  simp only at helements hdata hscopes hindent
  subst helements hdata hscopes hindent
  induction steps generalizing level with
  | nil => rfl
  | cons step rest ih =>
      cases step with
      | up => exact ih (level + 1)
      | root => rfl
      | «variable» => rfl
      | key name => rfl

theorem current_eq (hpage : par.Pages w p q) : p.current = q.current :=
  hpage.fromLevel_eq [] 0

theorem variableFrom_eq (hpage : par.Pages w p q) (steps : List Source.Step) (level : Nat) :
    p.variableFrom level steps = q.variableFrom level steps := by
  induction steps generalizing level with
  | nil => exact hpage.current_eq
  | cons step rest ih =>
      cases step with
      | up => exact ih (level + 1)
      | root => exact hpage.current_eq
      | «variable» => exact hpage.current_eq
      | key name =>
          have hvariable : p.variableAt? level name = q.variableAt? level name := by
            unfold Page.variableAt?
            rw [hpage.scopes]
          simp only [Page.variableFrom, hvariable]

/-- Paths lead to the same on pages that stand for each other. -/
theorem find_eq (hpage : par.Pages w p q) (path : Source.Path) : p.find path = q.find path := by
  unfold Page.find
  split
  · exact hpage.variableFrom_eq _ 0
  · exact hpage.fromLevel_eq _ 0

theorem enter_alike (hpage : par.Pages w p q) (scope : Scope) :
    par.Pages w (p.enter scope) (q.enter scope) :=
  { hpage with scopes := congrArg (scope :: ·) hpage.scopes }

theorem enterWithin_alike (hpage : par.Pages w p q) (scope : Scope) :
    par.Pages w (p.enterWithin scope) (q.enterWithin scope) := by
  have hinnermost : p.innermost = q.innermost := by
    unfold Page.innermost
    rw [hpage.scopes]
  unfold Page.enterWithin
  rw [hinnermost]
  exact hpage.enter_alike _

theorem start_alike {f g : Frame} (hwriting : par.writing w) (hframe : par.frames w f g)
    (elements : List Source.Element) (data : Json) :
    par.Pages w (.start f elements data) (.start g elements data) :=
  ⟨hwriting, hframe, rfl, rfl, rfl, rfl⟩

theorem renderSome_alike (hworkers : par.Workers worker worker') (hpage : par.Pages w p q)
    (elements : Option (List Source.Element)) :
    par.Same w (p.renderSome worker elements) (q.renderSome worker' elements) := by
  cases elements with
  | none => exact Likeness.pure_alike rfl
  | some elements => exact hworkers w _ _ (.page hpage)

theorem renderRounds_alike (hworkers : par.Workers worker worker') (hpage : par.Pages w p q)
    (whole : Found) (block : Block) (givesKey : Bool) (entries : List (String × Json × Json)) :
    par.Same w (p.renderRounds worker whole block givesKey entries)
      (q.renderRounds worker' whole block givesKey entries) := by
  unfold Page.renderRounds
  apply Likeness.concat_alike _
  intro w' grown entry _
  exact hworkers w' _ _ (.page ((hpage.grow grown).enter_alike _))

theorem renderEach_alike (hworkers : par.Workers worker worker') (hpage : par.Pages w p q)
    (whole : Found) (block : Block) :
    par.Same w (p.renderEach worker whole block) (q.renderEach worker' whole block) := by
  unfold Page.renderEach
  split
  · exact hpage.renderRounds_alike hworkers whole block false _
  · exact hpage.renderRounds_alike hworkers whole block true _
  · exact hpage.renderSome_alike hworkers block.alternative

theorem renderWithin_alike (hworkers : par.Workers worker worker') (hpage : par.Pages w p q)
    (found : Found) (block : Option Block) :
    par.Same w (p.renderWithin worker found block) (q.renderWithin worker' found block) := by
  unfold Page.renderWithin
  split
  · cases block with
    | none => exact Likeness.pure_alike rfl
    | some block => exact hworkers w _ _ (.page (hpage.enterWithin_alike _))
  · exact hpage.renderSome_alike hworkers _

/-- A text of the page that a helper gives. -/
theorem output_alike {text text' : Render String} (h : par.Same w text text') :
    par.Same w (Yield.output <$> text) (Yield.output <$> text') := by
  apply Likeness.map_alike h
  rintro w' _ text _ rfl
  rfl

theorem callNative_alike (hworkers : par.Workers worker worker') (hpage : par.Pages w p q)
    (helper : Native) (arguments : Arguments) (block : Option Block) :
    par.Same w (p.callNative worker helper arguments block)
      (q.callNative worker' helper arguments block) := by
  unfold Page.callNative
  split
  · exact output_alike (hpage.renderSome_alike hworkers _)
  · cases block with
    | none => exact Likeness.pure_alike rfl
    | some block => exact output_alike (hpage.renderEach_alike hworkers _ block)
  · exact output_alike (hpage.renderWithin_alike hworkers _ block)
  · exact output_alike (hpage.renderSome_alike hworkers _)
  · split
    · exact Likeness.pure_alike rfl
    · exact Likeness.fail_alike _
  · split
    · exact output_alike (hpage.renderSome_alike hworkers _)
    · exact Likeness.pure_alike rfl
    · exact Likeness.fail_alike _

end Pages

namespace Lawful

theorem call_page_alike (laws : par.Lawful reuse reuse') (hworkers : par.Workers worker worker')
    (hpage : par.Pages w p q) (callee : Page.Callee) (arguments : Arguments)
    (block : Option Block) :
    par.Same w (p.call reuse worker callee arguments block)
      (q.call reuse' worker' callee arguments block) := by
  cases callee with
  | native helper => exact hpage.callNative_alike hworkers helper arguments block
  | registered name =>
      simp only [Page.call, hpage.data]
      have hoptions := Options.ofFrame_alike laws hpage.frame
      refine Likeness.bind_alike (Likeness.mapError_alike _
        (laws.callHelper_alike hworkers hpage.frame hoptions name _ _)) ?_
      rintro w' _ text _ rfl
      exact Likeness.pure_alike rfl
  | dispatcher =>
      simp only [Page.call, hpage.data]
      split
      · refine Likeness.bind_alike (Likeness.mapError_alike _
          (laws.invokePartial_alike hworkers hpage.frame _ _)) ?_
        rintro w' _ text _ rfl
        exact Likeness.pure_alike rfl
      · exact Likeness.fail_alike _

theorem callee_alike (laws : par.Lawful reuse reuse') (hpage : par.Pages w p q) (name : String) :
    par.Same w (Render.look (Page.callee? · p.frame name))
      (Render.look (Page.callee? · q.frame name)) := by
  refine Likeness.look_alike fun s t hstores => ?_
  unfold Page.callee?
  rw [laws.helper_names hstores hpage.frame]

theorem known_callee_alike (laws : par.Lawful reuse reuse') (hpage : par.Pages w p q)
    (name : String) : par.Same w (p.callee name) (q.callee name) := by
  unfold Page.callee
  apply Likeness.bind_alike (laws.callee_alike hpage name)
  rintro w' _ callee _ rfl
  exact Likeness.ofOption_alike _ callee

mutual
/-- What stands for a value on a page is the same; the induction follows the
calls inside it. -/
theorem operand_alike (laws : par.Lawful reuse reuse') (hworkers : par.Workers worker worker') :
    ∀ {w : World} (o : Source.Operand), par.Pages w p q →
      par.Same w (p.operand reuse worker o) (q.operand reuse' worker' o)
  | _, .word _, _ => Likeness.pure_alike rfl
  | _, .path path, hpage => by
      simp only [Page.operand, hpage.find_eq path]
      exact Likeness.ofOption_alike _ _
  | _, .literal _, _ => Likeness.pure_alike rfl
  | _, .call call, hpage => nestedCall_alike laws hworkers call hpage
termination_by structural _ o => o

theorem nestedCall_alike (laws : par.Lawful reuse reuse')
    (hworkers : par.Workers worker worker') :
    ∀ {w : World} (c : Source.Call), par.Pages w p q →
      par.Same w (p.nestedCall reuse worker c) (q.nestedCall reuse' worker' c)
  | _, .mk head plain named, hpage => by
      simp only [Page.nestedCall]
      apply Likeness.bind_alike (headName_alike laws hworkers head hpage)
      rintro w₁ grown₁ name _ rfl
      have hpage₁ := hpage.grow grown₁
      apply Likeness.bind_alike (operands_alike laws hworkers plain hpage₁)
      rintro w₂ grown₂ founds _ rfl
      have hpage₂ := hpage₁.grow grown₂
      apply Likeness.bind_alike (namedOperands_alike laws hworkers named hpage₂)
      rintro w₃ grown₃ namedFounds _ rfl
      have hpage₃ := hpage₂.grow grown₃
      apply Likeness.bind_alike (laws.known_callee_alike hpage₃ name)
      rintro w₄ grown₄ callee _ rfl
      refine Likeness.bind_alike
        (laws.call_page_alike hworkers (hpage₃.grow grown₄) callee _ none) ?_
      rintro w₅ _ yield _ rfl
      cases yield with
      | value value => exact Likeness.pure_alike rfl
      | output text => exact Likeness.pure_alike rfl
termination_by structural _ c => c

theorem headName_alike (laws : par.Lawful reuse reuse')
    (hworkers : par.Workers worker worker') :
    ∀ {w : World} (o : Source.Operand), par.Pages w p q →
      par.Same w (p.headName reuse worker o) (q.headName reuse' worker' o)
  | _, .word _, _ => Likeness.pure_alike rfl
  | _, .path _, _ => Likeness.pure_alike rfl
  | _, .literal _, _ => Likeness.pure_alike rfl
  | _, .call call, hpage => by
      simp only [Page.headName]
      apply Likeness.bind_alike (nestedCall_alike laws hworkers call hpage)
      rintro w' _ found _ rfl
      exact Likeness.pure_alike rfl
termination_by structural _ o => o

theorem operands_alike (laws : par.Lawful reuse reuse')
    (hworkers : par.Workers worker worker') :
    ∀ {w : World} (os : List Source.Operand), par.Pages w p q →
      par.Same w (p.operands reuse worker os) (q.operands reuse' worker' os)
  | _, [], _ => Likeness.pure_alike rfl
  | _, o :: rest, hpage => by
      simp only [Page.operands]
      apply Likeness.bind_alike (operand_alike laws hworkers o hpage)
      rintro w₁ grown found _ rfl
      apply Likeness.bind_alike (operands_alike laws hworkers rest (hpage.grow grown))
      rintro w₂ _ others _ rfl
      exact Likeness.pure_alike rfl
termination_by structural _ os => os

theorem namedOperands_alike (laws : par.Lawful reuse reuse')
    (hworkers : par.Workers worker worker') :
    ∀ {w : World} (os : List (String × Source.Operand)), par.Pages w p q →
      par.Same w (p.namedOperands reuse worker os) (q.namedOperands reuse' worker' os)
  | _, [], _ => Likeness.pure_alike rfl
  | _, (name, o) :: rest, hpage => by
      simp only [Page.namedOperands]
      apply Likeness.bind_alike (operand_alike laws hworkers o hpage)
      rintro w₁ grown found _ rfl
      apply Likeness.bind_alike (namedOperands_alike laws hworkers rest (hpage.grow grown))
      rintro w₂ _ others _ rfl
      exact Likeness.pure_alike rfl
termination_by structural _ os => os
end

theorem arguments_alike (laws : par.Lawful reuse reuse')
    (hworkers : par.Workers worker worker') (hpage : par.Pages w p q) (call : Source.Call) :
    par.Same w (p.arguments reuse worker call) (q.arguments reuse' worker' call) := by
  unfold Page.arguments
  apply Likeness.bind_alike (laws.operands_alike hworkers call.arguments hpage)
  rintro w₁ grown plain _ rfl
  apply Likeness.bind_alike (laws.namedOperands_alike hworkers call.named (hpage.grow grown))
  rintro w₂ _ named _ rfl
  exact Likeness.pure_alike rfl

/-- The pens write the same, for they are equal before. -/
theorem write_alike (laws : par.Lawful reuse reuse') (hpage : par.Pages w p q) (text : String) :
    par.Same w (p.write text) (q.write text) := by
  intro s t hstores
  have hpen := laws.pen hpage.writing hstores
  unfold Page.write
  rw [hpage.indent]
  refine .done (par.grows_refl w) ?_ ?_
  · simp only [hpen]
  · refine laws.quiet (fun s => { s with pen := (s.pen.write q.indent text).2 }) hstores
      (fun s => s.pen_quiet _) ?_
    intro s t hpen
    simp only [hpen]

theorem part_alike (laws : par.Lawful reuse reuse') (hwriting : par.writing w)
    (indents : Pen → Bool) {action action' : Render String}
    (h : ∀ w', par.grows w w' → par.Same w' action action') :
    par.Same w (Page.part indents action) (Page.part indents action') := by
  unfold Page.part
  have hlook : par.Same w (Render.look (·.pen)) (Render.look (·.pen)) :=
    Likeness.look_alike fun _ _ hstores => laws.pen hwriting hstores
  apply Likeness.bind_alike hlook
  rintro w₁ grown₁ before _ rfl
  have hbegin : par.Same w₁
      (Render.update fun s => { s with pen := before.beginPart (indents before) })
      (Render.update fun s => { s with pen := before.beginPart (indents before) }) :=
    laws.quiet_alike (fun s => s.pen_quiet _) fun _ _ _ => rfl
  apply Likeness.bind_alike hbegin
  intro w₂ grown₂ _ _ _
  apply Likeness.bind_alike (h w₂ (par.grows_trans grown₁ grown₂))
  rintro w₃ _ text _ rfl
  have hend : par.Same w₃ (Render.update fun s => { s with pen := before.endPart s.pen })
      (Render.update fun s => { s with pen := before.endPart s.pen }) :=
    laws.quiet_alike (fun s => s.pen_quiet _) fun _ _ hpen => congrArg before.endPart hpen
  apply Likeness.bind_alike hend
  intro w₄ _ _ _ _
  exact Likeness.pure_alike rfl

theorem withPen_alike (laws : par.Lawful reuse reuse') {action action' : Render α}
    (h : ∀ inner, par.writing inner → (∀ f g, par.frames w f g → par.frames inner f g) →
      par.Same inner action action') : par.Same w action.withPen action'.withPen := by
  intro s t hstores
  obtain ⟨inner, hwriting, hframes, hbegun, hleave⟩ := laws.writes hstores
  have hends := h inner hwriting hframes _ _ hbegun
  unfold Render.withPen
  generalize action { s with pen := {} } = x at hends
  generalize action' { t with pen := {} } = y at hends
  cases hends with
  | done grown value store =>
      obtain ⟨w', grown', hleft⟩ := hleave grown store
      exact .done grown' value hleft
  | failed e grown store =>
      obtain ⟨w', grown', hleft⟩ := hleave grown store
      exact .failed e grown' hleft
  | exhausted grown store =>
      obtain ⟨w', grown', hleft⟩ := hleave grown store
      exact .exhausted grown' hleft
  | nothing lenient gives => exact .nothing lenient gives

theorem renderCall_alike (laws : par.Lawful reuse reuse') (hpage : par.Pages w p q)
    (hasOwnLine isRaw : Bool) {yield yield' : Render Yield}
    (h : ∀ w', par.grows w w' → par.Same w' yield yield') :
    par.Same w (p.renderCall hasOwnLine isRaw yield) (q.renderCall hasOwnLine isRaw yield') := by
  unfold Page.renderCall
  apply laws.part_alike hpage.writing
  intro w₁ grown₁
  apply Likeness.bind_alike (h w₁ grown₁)
  rintro w₂ grown₂ yield _ rfl
  cases yield with
  | value value => exact laws.write_alike (hpage.grow (par.grows_trans grown₁ grown₂)) _
  | output text => exact Likeness.pure_alike rfl

theorem renderExpression_alike (laws : par.Lawful reuse reuse')
    (hworkers : par.Workers worker worker') (hpage : par.Pages w p q) (isRaw : Bool)
    (call : Source.Call) :
    par.Same w (p.renderExpression reuse worker isRaw call)
      (q.renderExpression reuse' worker' isRaw call) := by
  unfold Page.renderExpression
  apply Likeness.bind_alike (laws.headName_alike hworkers call.head hpage)
  rintro w₁ grown₁ name _ rfl
  have hpage₁ := hpage.grow grown₁
  apply Likeness.bind_alike (laws.callee_alike hpage₁ name)
  rintro w₂ grown₂ known _ rfl
  have hpage₂ := hpage₁.grow grown₂
  split
  · apply Likeness.bind_alike (laws.operand_alike hworkers call.head hpage₂)
    rintro w₃ grown₃ found _ rfl
    split
    · exact Likeness.pure_alike rfl
    · exact laws.write_alike (hpage₂.grow grown₃) _
  · apply Likeness.bind_alike (laws.headName_alike hworkers call.head hpage₂)
    rintro w₃ grown₃ name _ rfl
    have hpage₃ := hpage₂.grow grown₃
    apply Likeness.bind_alike (laws.arguments_alike hworkers hpage₃ call)
    rintro w₄ grown₄ arguments _ rfl
    have hpage₄ := hpage₃.grow grown₄
    apply Likeness.bind_alike (laws.known_callee_alike hpage₄ name)
    rintro w₅ grown₅ callee _ rfl
    have hpage₅ := hpage₄.grow grown₅
    exact laws.renderCall_alike hpage₅ false isRaw fun w' grown =>
      laws.call_page_alike hworkers (hpage₅.grow grown) callee arguments none

theorem renderBlock_page_alike (laws : par.Lawful reuse reuse')
    (hworkers : par.Workers worker worker') (hpage : par.Pages w p q) (call : Source.Call)
    (hasOwnLine : Bool) (block : Block) :
    par.Same w (p.renderBlock reuse worker call hasOwnLine block)
      (q.renderBlock reuse' worker' call hasOwnLine block) := by
  unfold Page.renderBlock
  apply Likeness.bind_alike (laws.headName_alike hworkers call.head hpage)
  rintro w₁ grown₁ name _ rfl
  have hpage₁ := hpage.grow grown₁
  apply Likeness.bind_alike (laws.arguments_alike hworkers hpage₁ call)
  rintro w₂ grown₂ arguments _ rfl
  have hpage₂ := hpage₁.grow grown₂
  apply Likeness.bind_alike (laws.known_callee_alike hpage₂ name)
  rintro w₃ grown₃ callee _ rfl
  have hpage₃ := hpage₂.grow grown₃
  exact laws.renderCall_alike hpage₃ hasOwnLine false fun w' grown =>
    laws.call_page_alike hworkers (hpage₃.grow grown) callee arguments (some block)

theorem partial_alike (laws : par.Lawful reuse reuse') (hpage : par.Pages w p q) (name : String) :
    par.Same w (Render.look (Page.partial? · p name)) (Render.look (Page.partial? · q name)) := by
  refine Likeness.look_alike fun s t hstores => ?_
  unfold Page.partial?
  rw [laws.partial_names hstores hpage.frame, hpage.elements]

theorem renderInclusion_alike (laws : par.Lawful reuse reuse')
    (hworkers : par.Workers worker worker') (hpage : par.Pages w p q) (call : Source.Call)
    (indent : Source.Indent) :
    par.Same w (p.renderInclusion reuse worker call indent)
      (q.renderInclusion reuse' worker' call indent) := by
  unfold Page.renderInclusion
  apply Likeness.bind_alike (laws.headName_alike hworkers call.head hpage)
  rintro w₁ grown₁ name _ rfl
  have hpage₁ := hpage.grow grown₁
  apply Likeness.bind_alike (laws.arguments_alike hworkers hpage₁ call)
  rintro w₂ grown₂ arguments _ rfl
  have hpage₂ := hpage₁.grow grown₂
  apply Likeness.bind_alike (laws.partial_alike hpage₂ name)
  rintro w₃ grown₃ found _ rfl
  have hpage₃ := hpage₂.grow grown₃
  apply Likeness.bind_alike (Likeness.ofOption_alike _ found)
  rintro w₄ grown₄ elements _ rfl
  have hpage₄ := hpage₃.grow grown₄
  -- The rest of the inclusion, from the value that the partial gets as its own.
  have hrest : ∀ w', par.grows w₄ w' → ∀ own : Json, par.Same w'
      (Page.part (fun pen => indent.hasOwnLine && (pen.endsLine || !indent.blanks.isEmpty))
        (worker (.page { p.enterWithin { own := some own } with
          indent := p.indent ++ indent.blanks } elements)))
      (Page.part (fun pen => indent.hasOwnLine && (pen.endsLine || !indent.blanks.isEmpty))
        (worker' (.page { q.enterWithin { own := some own } with
          indent := q.indent ++ indent.blanks } elements))) := by
    intro w' grown own
    apply laws.part_alike (hpage₄.grow grown).writing
    intro w'' grown'
    have hinside := (hpage₄.grow (par.grows_trans grown grown')).enterWithin_alike
      { own := some own }
    exact hworkers w'' _ _
      (.page { hinside with indent := congrArg (· ++ indent.blanks) hpage.indent })
  cases arguments.plain.head? with
  | some base => exact hrest w₄ (par.grows_refl w₄) _
  | none =>
      simp only [hpage.current_eq]
      apply Likeness.bind_alike (Likeness.ofOption_alike _ _)
      rintro w₅ grown₅ base _ rfl
      exact hrest w₅ grown₅ _

/-- Elements of pages that stand for each other give the same text. -/
theorem element_alike (laws : par.Lawful reuse reuse') (hworkers : par.Workers worker worker')
    (hpage : par.Pages w p q) (element : Source.Element) :
    par.Same w (p.renderElement reuse worker element) (q.renderElement reuse' worker' element) := by
  cases element with
  | text text => exact laws.write_alike hpage text
  | expression isRaw call => exact laws.renderExpression_alike hworkers hpage isRaw call
  | block call names hasOwnLine body alternative =>
      exact laws.renderBlock_page_alike hworkers hpage call hasOwnLine ⟨names, body, alternative⟩
  | inclusion call indent => exact laws.renderInclusion_alike hworkers hpage call indent

theorem checkPartials_alike (names : List String) :
    par.Same w (Page.checkPartials names) (Page.checkPartials names) := by
  induction names with
  | nil => exact Likeness.pure_alike rfl
  | cons name rest ih =>
      unfold Page.checkPartials
      split
      · exact ih
      · exact Likeness.fail_alike _

/-- A whole page: the names of the registries are the same, and so is the JSON
form of the context. -/
theorem page_alike (laws : par.Lawful reuse reuse') (hworkers : par.Workers worker worker')
    {f g : Frame} (hframe : par.frames w f g) (elements : List Source.Element) (context : Value) :
    par.Same w (Page.render worker f elements context)
      (Page.render worker' g elements context) := by
  unfold Page.render
  have hhelpers : par.Same w (Render.look (Page.helperNames · f))
      (Render.look (Page.helperNames · g)) :=
    Likeness.look_alike fun _ _ hstores => laws.helper_names hstores hframe
  apply Likeness.bind_alike hhelpers
  rintro w₁ grown₁ helpers _ rfl
  have hframe₁ := par.frames_grow grown₁ hframe
  have hpartials : par.Same w₁ (Render.look (Page.partialNames · f))
      (Render.look (Page.partialNames · g)) :=
    Likeness.look_alike fun _ _ hstores => laws.partial_names hstores hframe₁
  apply Likeness.bind_alike hpartials
  rintro w₂ grown₂ partials _ rfl
  have hframe₂ := par.frames_grow grown₂ hframe₁
  apply Likeness.bind_alike (checkPartials_alike partials)
  intro w₃ grown₃ _ _ _
  have hframe₃ := par.frames_grow grown₃ hframe₂
  apply Likeness.bind_alike (laws.note_alike _)
  intro w₄ grown₄ _ _ _
  have hframe₄ := par.frames_grow grown₄ hframe₃
  have htally : par.Same w₄ (Render.update (·.tally context.toJson.2))
      (Render.update (·.tally context.toJson.2)) :=
    laws.quiet_alike (fun s => s.tally_quiet _) fun _ _ hpen => hpen
  apply Likeness.bind_alike htally
  intro w₅ grown₅ _ _ _
  have hframe₅ := par.frames_grow grown₅ hframe₄
  apply laws.withPen_alike
  intro inner hwriting hframes
  exact hworkers inner _ _
    (.page (Pages.start_alike hwriting (hframes f g hframe₅) elements _))

end Lawful

end Parallel

end Stencil
