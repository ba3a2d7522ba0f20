import Stencil.Proofs.Likeness.Helpers

/-!
Nodes of two runtimes side by side. In scenes that stand for each other an
expression gives the same value, what stands for a program gives programs that
stand for each other, and a node gives the same text.
-/

namespace Stencil

namespace Parallel

variable {World : Type} {par : Parallel World} {reuse reuse' : Reuse} {w : World}
  {a b : Scene} {worker worker' : Worker}

namespace Scenes

theorem options_data_eq (hscene : par.Scenes w a b) :
    a.options.bind (·.data) = b.options.bind (·.data) := by
  obtain ⟨_, _, _, _, _, options⟩ := a
  obtain ⟨_, _, _, _, _, options'⟩ := b
  cases hscene.options with
  | none => rfl
  | some hoptions => exact hoptions.data

theorem isBlock_eq (hscene : par.Scenes w a b) :
    a.options.any (·.isBlock) = b.options.any (·.isBlock) := by
  obtain ⟨_, _, _, _, _, options⟩ := a
  obtain ⟨_, _, _, _, _, options'⟩ := b
  cases hscene.options with
  | none => rfl
  | some hoptions => exact hoptions.isBlock_eq

/-- The block of a helper, if it was called with one. -/
theorem block_alike (hscene : par.Scenes w a b) :
    Option.Rel (par.Programs w a.frame) (a.options.bind (·.block)) (b.options.bind (·.block)) := by
  obtain ⟨_, _, _, _, _, options⟩ := a
  obtain ⟨_, _, _, _, _, options'⟩ := b
  cases hscene.options with
  | none => exact .none
  | some hoptions => exact hoptions.block

theorem inverse_alike (hscene : par.Scenes w a b) :
    Option.Rel (par.Programs w a.frame) (a.options.map (·.inverse))
      (b.options.map (·.inverse)) := by
  obtain ⟨_, _, _, _, _, options⟩ := a
  obtain ⟨_, _, _, _, _, options'⟩ := b
  cases hscene.options with
  | none => exact .none
  | some hoptions => exact .some hoptions.inverse

end Scenes

/-- A program that may be missing, with another one to fall back on. -/
theorem Programs.getD_alike {frame : Frame} {p q : Option Program} {other other' : Program}
    (h : Option.Rel (par.Programs w frame) p q) (hother : par.Programs w frame other other') :
    par.Programs w frame (p.getD other) (q.getD other') := by
  cases h with
  | none => exact hother
  | some hprograms => exact hprograms

theorem Programs.or_alike {frame : Frame} {p q other other' : Option Program}
    (h : Option.Rel (par.Programs w frame) p q)
    (hother : Option.Rel (par.Programs w frame) other other') :
    Option.Rel (par.Programs w frame) (p.or other) (q.or other') := by
  cases h with
  | none => simpa using hother
  | some hprograms => exact .some hprograms

theorem Programs.outline_eq {frame : Frame} {p q : Program} (h : par.Programs w frame p q) :
    p.outline = q.outline := by
  unfold Program.outline
  rw [h.data, h.depths]

theorem Options.outline_eq {frame : Frame} {o p : HelperOptions} (h : par.Options w frame o p) :
    o.outline = p.outline := by
  have hblock : o.block.map Program.outline = p.block.map Program.outline := by
    obtain ⟨block, _, _⟩ := o
    obtain ⟨block', _, _⟩ := p
    cases h.block with
    | none => rfl
    | some hprograms => exact congrArg some hprograms.outline_eq
  unfold HelperOptions.outline
  rw [hblock, h.inverse.outline_eq, h.data]

namespace Lawful

/-- An expression gives the same value; the induction follows the expression,
and texts inside it are left to the workers. -/
theorem value_alike (laws : par.Lawful reuse reuse') (hworkers : par.Workers worker worker') :
    ∀ {w : World} (e : Expr), par.Scenes w a b → (par.licence a.frame).AllowsExpr e →
      par.Same w (a.value worker e) (b.value worker' e)
  | _, .this path, hscene, _ => by
      simp only [Scene.value, hscene.this]
      exact Likeness.pure_alike rfl
  | _, .scope path, hscene, _ => by
      simp only [Scene.value, hscene.scope]
      exact Likeness.pure_alike rfl
  | _, .data path, hscene, _ => by
      simp only [Scene.value, hscene.data]
      exact Likeness.pure_alike rfl
  | _, .ancestor index path, hscene, _ => by
      simp only [Scene.value, hscene.depths]
      exact Likeness.pure_alike rfl
  | _, .optionsData path, hscene, _ => by
      simp only [Scene.value, hscene.options_data_eq]
      exact Likeness.pure_alike rfl
  | _, .literal value, _, _ => Likeness.pure_alike rfl
  | _, .hasData, hscene, _ => by
      simp only [Scene.value, hscene.data]
      exact Likeness.pure_alike rfl
  | _, .nesting, hscene, _ => by
      simp only [Scene.value, (laws.frames_match hscene.frame).depth]
      exact Likeness.pure_alike rfl
  | _, .resolved e, hscene, hallowed => by
      simp only [Scene.value]
      apply Likeness.bind_alike (value_alike laws hworkers e hscene hallowed)
      rintro w' _ v _ rfl
      exact laws.resolve_alike v
  | _, .field e key, hscene, hallowed => by
      simp only [Scene.value]
      apply Likeness.bind_alike (value_alike laws hworkers e hscene hallowed)
      rintro w' _ v _ rfl
      exact Likeness.pure_alike rfl
  | _, .safe e, hscene, hallowed => by
      simp only [Scene.value]
      apply Likeness.bind_alike (value_alike laws hworkers e hscene hallowed)
      rintro w' _ v _ rfl
      exact Likeness.pure_alike rfl
  | w, .rendered nodes, hscene, hallowed => by
      simp only [Scene.value]
      apply Likeness.bind_alike (hworkers w _ _ (.nodes hscene hallowed))
      rintro w' _ text _ rfl
      exact Likeness.pure_alike rfl
  | _, .missingValue name, hscene, _ => by
      simp only [Scene.value]
      exact laws.resolveMissingValue_alike hscene.frame name
termination_by structural _ e => e

theorem optional_value_alike (laws : par.Lawful reuse reuse')
    (hworkers : par.Workers worker worker') (hscene : par.Scenes w a b) (e : Option Expr)
    (hallowed : (par.licence a.frame).AllowsExpr? e) :
    par.Same w (a.value? worker e) (b.value? worker' e) := by
  cases e with
  | none => exact Likeness.pure_alike rfl
  | some e =>
      apply Likeness.map_alike (laws.value_alike hworkers e hscene hallowed)
      rintro w' _ v _ rfl
      rfl

theorem program_alike (laws : par.Lawful reuse reuse') (hworkers : par.Workers worker worker')
    (hscene : par.Scenes w a b) (p : ProgramExpr)
    (hallowed : (par.licence a.frame).AllowsProgram p) :
    par.Alike w (fun w' => par.Programs w' a.frame) (a.program reuse worker p)
      (b.program reuse' worker' p) := by
  cases p with
  | cached index body data =>
      obtain ⟨hrequest, hbody, hdata⟩ := hallowed
      apply Likeness.bind_alike (laws.optional_value_alike hworkers hscene data hdata)
      rintro w' grown value _ rfl
      exact laws.provides (par.frames_grow grown hscene.frame) hrequest hbody
  | nested body data depths =>
      obtain ⟨hbody, hdata, hdepths⟩ := hallowed
      apply Likeness.bind_alike (laws.optional_value_alike hworkers hscene data hdata)
      rintro w₁ grown₁ value _ rfl
      have hscene₁ := hscene.grow grown₁
      have hvalues : par.Same w₁ (depths.mapM (a.value worker)) (depths.mapM (b.value worker')) :=
        Likeness.mapM_alike depths fun w' grown e member =>
          laws.value_alike hworkers e (hscene₁.grow grown)
            (Licence.allowsExprs_iff.mp hdepths e member)
      apply Likeness.bind_alike hvalues
      rintro w₂ grown₂ values _ rfl
      exact laws.makes (par.frames_grow grown₂ hscene₁.frame) hbody
  | plain body data =>
      obtain ⟨hbody, hdata⟩ := hallowed
      apply Likeness.bind_alike (laws.optional_value_alike hworkers hscene data hdata)
      rintro w' grown value _ rfl
      exact laws.makes (par.frames_grow grown hscene.frame) hbody
  | noop => exact Likeness.pure_alike (laws.noop hscene.frame)
  | block =>
      exact Likeness.pure_alike (Programs.getD_alike hscene.block_alike (laws.noop hscene.frame))
  | inverse =>
      exact Likeness.pure_alike (Programs.getD_alike hscene.inverse_alike (laws.noop hscene.frame))

theorem optional_program_alike (laws : par.Lawful reuse reuse')
    (hworkers : par.Workers worker worker') (hscene : par.Scenes w a b) (p : Option ProgramExpr)
    (hallowed : (par.licence a.frame).AllowsProgram? p) :
    par.Alike w (fun w' => Option.Rel (par.Programs w' a.frame)) (a.program? reuse worker p)
      (b.program? reuse' worker' p) := by
  cases p with
  | none => exact Likeness.pure_alike .none
  | some p =>
      apply Likeness.map_alike (laws.program_alike hworkers hscene p hallowed)
      intro w' _ q r hprograms
      exact .some hprograms

/-- The options of a call: those of the helper around it or new ones, with a
block, an alternative and data put in. -/
theorem helperOptions_alike (laws : par.Lawful reuse reuse')
    (hworkers : par.Workers worker worker') (hscene : par.Scenes w a b) (o : OptionsExpr)
    (hallowed : (par.licence a.frame).AllowsOptions o) :
    par.Alike w (fun w' => par.Options w' a.frame) (a.helperOptions reuse worker o)
      (b.helperOptions reuse' worker' o) := by
  obtain ⟨inherits, block, inverse, data, swaps⟩ := o
  obtain ⟨hblock, hinverse, hdata⟩ := hallowed
  simp only [Scene.helperOptions]
  have hfresh := Options.ofFrame_alike laws hscene.frame
  have hbase : par.Options w a.frame
      (if inherits then a.options.getD (.ofFrame a.frame) else .ofFrame a.frame)
      (if inherits then b.options.getD (.ofFrame b.frame) else .ofFrame b.frame) := by
    split
    · obtain ⟨_, _, _, _, _, options⟩ := a
      obtain ⟨_, _, _, _, _, options'⟩ := b
      cases hscene.options with
      | none => exact hfresh
      | some hoptions => exact hoptions
    · exact hfresh
  generalize (if inherits then a.options.getD (.ofFrame a.frame)
    else .ofFrame a.frame) = base at hbase ⊢
  generalize (if inherits then b.options.getD (.ofFrame b.frame)
    else .ofFrame b.frame) = base' at hbase ⊢
  apply Likeness.bind_alike (laws.optional_program_alike hworkers hscene block hblock)
  intro w₁ grown₁ p p' hp
  have hscene₁ := hscene.grow grown₁
  apply Likeness.bind_alike (laws.optional_program_alike hworkers hscene₁ inverse hinverse)
  intro w₂ grown₂ q q' hq
  have hscene₂ := hscene₁.grow grown₂
  apply Likeness.bind_alike (laws.optional_value_alike hworkers hscene₂ data hdata)
  rintro w₃ grown₃ v _ rfl
  have grown := par.grows_trans grown₁ (par.grows_trans grown₂ grown₃)
  have hbase₃ := hbase.grow grown
  have hp₃ : Option.Rel (par.Programs w₃ a.frame) p p' := by
    cases hp with
    | none => exact .none
    | some hprograms => exact .some (hprograms.grow (par.grows_trans grown₂ grown₃))
  have hq₃ : Option.Rel (par.Programs w₃ a.frame) q q' := by
    cases hq with
    | none => exact .none
    | some hprograms => exact .some (hprograms.grow grown₃)
  have hoptions : par.Options w₃ a.frame
      ⟨p.or base.block, q.getD base.inverse, v.or base.data⟩
      ⟨p'.or base'.block, q'.getD base'.inverse, v.or base'.data⟩ :=
    ⟨Programs.or_alike hp₃ hbase₃.block, Programs.getD_alike hq₃ hbase₃.inverse,
      congrArg v.or hbase₃.data⟩
  apply Likeness.pure_alike
  split
  · exact hoptions.swapped_alike laws (hscene₂.grow grown₃).frame
  · exact hoptions

/-- A call of what a registry or a negation provides, after its context and its
options. -/
theorem call_alike (laws : par.Lawful reuse reuse') (hworkers : par.Workers worker worker')
    (hscene : par.Scenes w a b) {e : Expr} {o : OptionsExpr}
    {call call' : Value → HelperOptions → Render String}
    (he : (par.licence a.frame).AllowsExpr e) (ho : (par.licence a.frame).AllowsOptions o)
    (hcall : ∀ w', par.Scenes w' a b → ∀ v p q, par.Options w' a.frame p q →
      par.Same w' (call v p) (call' v q)) :
    par.Same w
      (a.value worker e >>= fun v => a.helperOptions reuse worker o >>= fun p => call v p)
      (b.value worker' e >>= fun v => b.helperOptions reuse' worker' o >>= fun q => call' v q) := by
  apply Likeness.bind_alike (laws.value_alike hworkers e hscene he)
  rintro w₁ grown₁ v _ rfl
  have hscene₁ := hscene.grow grown₁
  apply Likeness.bind_alike (laws.helperOptions_alike hworkers hscene₁ o ho)
  intro w₂ grown₂ p q hoptions
  exact hcall w₂ (hscene₁.grow grown₂) v p q hoptions

theorem shown_alike (laws : par.Lawful reuse reuse') (hworkers : par.Workers worker worker')
    (hscene : par.Scenes w a b) (shown : Value → String) {e : Expr}
    (he : (par.licence a.frame).AllowsExpr e) :
    par.Same w (shown <$> a.value worker e) (shown <$> b.value worker' e) := by
  apply Likeness.map_alike (laws.value_alike hworkers e hscene he)
  rintro w' _ v _ rfl
  rfl

/-- A text that is made from the scene, of nodes that the licence allows. -/
theorem nodes_alike (hworkers : par.Workers worker worker') (hscene : par.Scenes w a b)
    {nodes : List Node} (hallowed : (par.licence a.frame).AllowsNodes nodes) :
    par.Same w (worker (.nodes a nodes)) (worker' (.nodes b nodes)) :=
  hworkers w _ _ (.nodes hscene hallowed)

/-- Nodes in scenes that stand for each other give the same text. -/
theorem node_alike (laws : par.Lawful reuse reuse') (hworkers : par.Workers worker worker')
    (hscene : par.Scenes w a b) (n : Node) (hallowed : (par.licence a.frame).AllowsNode n) :
    par.Same w (a.node reuse worker n) (b.node reuse' worker' n) := by
  cases n with
  | text text => exact Likeness.pure_alike rfl
  | escaped e => exact laws.shown_alike hworkers hscene Value.escape hallowed
  | plain e => exact laws.shown_alike hworkers hscene Value.text hallowed
  | outlined e => exact laws.shown_alike hworkers hscene (·.outline.compact) hallowed
  | call name e o =>
      simp only [Scene.node]
      apply laws.call_alike hworkers hscene hallowed.1 hallowed.2
      intro w' hscene' v p q hoptions
      rw [hscene'.scope]
      exact laws.callHelper_alike hworkers hscene'.frame hoptions name b.scope v
  | valueBlock e o =>
      simp only [Scene.node]
      apply laws.call_alike hworkers hscene hallowed.1 hallowed.2
      intro w' hscene' v p q hoptions
      rw [hscene'.scope]
      exact laws.blockHelperMissing_alike hworkers hscene'.frame hoptions b.scope v
  | inclusion name e =>
      simp only [Scene.node]
      apply Likeness.bind_alike (laws.value_alike hworkers e hscene hallowed)
      rintro w' grown v _ rfl
      exact laws.invokePartial_alike hworkers (par.frames_grow grown hscene.frame) name v
  | run p e d =>
      simp only [Scene.node]
      obtain ⟨hp, he, hd⟩ := hallowed
      apply Likeness.bind_alike (laws.optional_value_alike hworkers hscene d hd)
      rintro w₁ grown₁ data _ rfl
      have hscene₁ := hscene.grow grown₁
      apply Likeness.bind_alike (laws.program_alike hworkers hscene₁ p hp)
      intro w₂ grown₂ q r hprograms
      have hscene₂ := hscene₁.grow grown₂
      apply Likeness.bind_alike (laws.value_alike hworkers e hscene₂ he)
      rintro w₃ grown₃ v _ rfl
      exact (hprograms.grow grown₃).render_alike hworkers (hscene₂.grow grown₃).frame v data
  | missing name o =>
      simp only [Scene.node]
      apply Likeness.bind_alike (laws.helperOptions_alike hworkers hscene o hallowed)
      intro w' grown p q hoptions
      exact laws.resolveMissing_alike (par.frames_grow grown hscene.frame) hoptions name
  | missingBlock name o =>
      simp only [Scene.node]
      apply Likeness.bind_alike (laws.helperOptions_alike hworkers hscene o hallowed)
      intro w' grown p q hoptions
      exact laws.resolveMissingBlock_alike (par.frames_grow grown hscene.frame) name
  | negated name e o =>
      simp only [Scene.node]
      apply Likeness.bind_alike (laws.helper_alike hscene.frame name)
      rintro w' grown found _ ⟨rfl, hhelper⟩
      match found with
      | none => exact Likeness.pure_alike rfl
      | some ⟨_, none⟩ => exact Likeness.pure_alike rfl
      | some ⟨_, some negation⟩ =>
          apply laws.call_alike hworkers (hscene.grow grown) hallowed.1 hallowed.2
          intro w₂ hscene₂ v p q hoptions
          rw [hscene₂.scope]
          have hnegation := (hhelper _ rfl).2 negation rfl
          exact laws.action_alike hworkers hscene₂.frame hoptions hnegation b.scope v
  | budget size =>
      simp only [Scene.node]
      apply Likeness.bind_alike (laws.checkOutput_alike hscene.frame size)
      intro w' _ _ _ _
      exact Likeness.pure_alike rfl
  | log severity message =>
      simp only [Scene.node]
      have hlog : par.Same w (Render.update (·.log a.frame.environment severity message))
          (Render.update (·.log b.frame.environment severity message)) :=
        Likeness.update_alike fun _ _ hstores => laws.logs hstores hscene.frame severity message
      apply Likeness.bind_alike hlog
      intro w' _ _ _ _
      exact Likeness.pure_alike rfl
  | fail message cause => exact Likeness.fail_alike _
  | same p q =>
      simp only [Scene.node]
      obtain ⟨hcompares, hp, hq⟩ := hallowed
      apply Likeness.bind_alike (laws.program_alike hworkers hscene p hp)
      intro w₁ grown₁ first first' hfirst
      have hscene₁ := hscene.grow grown₁
      apply Likeness.bind_alike (laws.program_alike hworkers hscene₁ q hq)
      intro w₂ grown₂ second second' hsecond s t hstores
      have hiff := laws.compares hstores (par.frames_grow grown₂ hscene₁.frame) hcompares
        (hfirst.grow grown₂).identity hsecond.identity
      refine .done (par.grows_refl w₂) ?_ hstores
      simp only [hiff]
  | cachedCount =>
      simp only [Scene.node]
      have hcount : par.Same w (Render.look fun s => Text.numeral (s.slotsOf a.frame.template).size)
          (Render.look fun s => Text.numeral (s.slotsOf b.frame.template).size) :=
        Likeness.look_alike fun s t hstores =>
          congrArg Text.numeral (laws.counts hstores hscene.frame hallowed)
      exact hcount
  | hasHelper name =>
      simp only [Scene.node]
      apply Likeness.bind_alike (laws.helper_alike hscene.frame name)
      rintro w' _ found _ ⟨rfl, _⟩
      exact Likeness.pure_alike rfl
  | renderOptions =>
      exact Likeness.look_alike fun s t hstores =>
        congrArg Outline.compact (laws.outline hstores hscene.frame hallowed)
  | settings =>
      have hsame : a.frame.settings = b.frame.settings := by
        rcases (laws.frames_match hscene.frame).settings with hsame | ⟨lenient, _⟩
        · exact hsame
        · exact absurd lenient (laws.strict a.frame (.inl hallowed))
      simp only [Scene.node, hsame]
      exact Likeness.pure_alike rfl
  | outlinedOptions o =>
      simp only [Scene.node]
      apply Likeness.bind_alike (laws.helperOptions_alike hworkers hscene o hallowed)
      intro w' _ p q hoptions
      exact Likeness.pure_alike (congrArg Outline.compact hoptions.outline_eq)
  | isBlock =>
      simp only [Scene.node, hscene.isBlock_eq]
      exact Likeness.pure_alike rfl
  | renderBlock e =>
      simp only [Scene.node]
      apply Likeness.bind_alike (laws.value_alike hworkers e hscene hallowed)
      rintro w' grown v _ rfl
      have hscene' := hscene.grow grown
      obtain ⟨_, _, _, _, _, options⟩ := a
      obtain ⟨_, _, _, _, _, options'⟩ := b
      cases hscene'.options with
      | none => exact Likeness.pure_alike rfl
      | some hoptions => exact hoptions.renderBlock_alike hworkers hscene'.frame v
  | renderBlockWith e d =>
      simp only [Scene.node]
      apply Likeness.bind_alike (laws.value_alike hworkers d hscene hallowed.2)
      rintro w₁ grown₁ data _ rfl
      have hscene₁ := hscene.grow grown₁
      have hblock := hscene₁.block_alike
      generalize a.options.bind (·.block) = p at hblock
      generalize b.options.bind (·.block) = q at hblock
      cases hblock with
      | none => exact Likeness.pure_alike rfl
      | some hprograms =>
          apply Likeness.bind_alike (laws.value_alike hworkers e hscene₁ hallowed.1)
          rintro w₂ grown₂ v _ rfl
          exact (hprograms.grow grown₂).render_alike hworkers (hscene₁.grow grown₂).frame v
            (some data)
  | renderInverse e =>
      simp only [Scene.node]
      apply Likeness.bind_alike (laws.value_alike hworkers e hscene hallowed)
      rintro w' grown v _ rfl
      have hscene' := hscene.grow grown
      obtain ⟨_, _, _, _, _, options⟩ := a
      obtain ⟨_, _, _, _, _, options'⟩ := b
      cases hscene'.options with
      | none => exact Likeness.pure_alike rfl
      | some hoptions => exact hoptions.renderInverse_alike hworkers hscene'.frame v
  | ifTruthy e yes no =>
      simp only [Scene.node]
      apply Likeness.bind_alike (laws.value_alike hworkers e hscene hallowed.1)
      rintro w' grown v _ rfl
      split
      · exact nodes_alike hworkers (hscene.grow grown) hallowed.2.1
      · exact nodes_alike hworkers (hscene.grow grown) hallowed.2.2
  | ifShallow depth yes no =>
      simp only [Scene.node, (laws.frames_match hscene.frame).depth]
      split
      · exact nodes_alike hworkers hscene hallowed.1
      · exact nodes_alike hworkers hscene hallowed.2
  | attempt nodes =>
      have hstrict := laws.strict a.frame (.inr hallowed.1)
      exact Likeness.recover_alike hstrict _ (nodes_alike hworkers hscene hallowed.2)

end Lawful

end Parallel

end Stencil
