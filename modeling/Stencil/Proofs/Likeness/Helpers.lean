import Stencil.Proofs.Likeness.Parallel

/-!
Helpers and partials of two runtimes side by side. Whatever the workers do, a
helper that is called in frames that stand for each other, with options that
do, gives the same text, and so does a partial.
-/

namespace Stencil

namespace Parallel

variable {World : Type} {par : Parallel World} {reuse reuse' : Reuse} {w : World}
  {f g : Frame} {o p : HelperOptions} {worker worker' : Worker}

namespace Lawful

theorem quiet_alike (laws : par.Lawful reuse reuse') {change : Store → Store}
    (hquiet : ∀ s : Store, s.Quiet (change s))
    (hpen : ∀ s t : Store, s.pen = t.pen → (change s).pen = (change t).pen) :
    par.Same w (Render.update change) (Render.update change) :=
  Likeness.update_alike fun _ _ hstores => laws.quiet change hstores hquiet hpen

theorem note_alike (laws : par.Lawful reuse reuse') (diagnostic : Diagnostic) :
    par.Same w (Render.note diagnostic) (Render.note diagnostic) :=
  laws.quiet_alike (fun s => s.note_quiet diagnostic) fun _ _ hpen => hpen

theorem resolve_alike (laws : par.Lawful reuse reuse') (v : Value) :
    par.Same w (Render.resolve v) (Render.resolve v) := by
  unfold Render.resolve
  have htally : par.Same w (Render.update (·.tally v.resolve.tally))
      (Render.update (·.tally v.resolve.tally)) :=
    laws.quiet_alike (fun s => s.tally_quiet _) fun _ _ hpen => hpen
  exact Likeness.bind_alike htally fun _ _ _ _ _ => Likeness.pure_alike rfl

theorem refuse_alike (laws : par.Lawful reuse reuse') {values : World → α → β → Prop}
    (diagnostic : Diagnostic) (e : RenderError) :
    par.Alike w values (Render.note diagnostic >>= fun _ => Render.fail e)
      (Render.note diagnostic >>= fun _ => Render.fail e) :=
  Likeness.bind_alike (laws.note_alike diagnostic) fun _ _ _ _ _ => Likeness.fail_alike e

end Lawful

theorem Programs.render_alike (hworkers : par.Workers worker worker') {q r : Program}
    (hframe : par.frames w f g) (hprogram : par.Programs w f q r) (context : Value)
    (data : Option Value) :
    par.Same w (q.render worker f context data) (r.render worker' g context data) := by
  obtain ⟨i, body, captured, depths⟩ := q
  obtain ⟨j, body', captured', depths'⟩ := r
  obtain ⟨_, hbody, hdata, hdepths, hallowed⟩ := hprogram
  simp only at hbody hdata hdepths hallowed
  subst hbody hdata hdepths
  exact hworkers w _ _ (.nodes ⟨hframe, rfl, rfl, rfl, rfl, .none⟩ hallowed)

namespace Options

theorem renderBlock_alike (hworkers : par.Workers worker worker') (hframe : par.frames w f g)
    (hoptions : par.Options w f o p) (context : Value) :
    par.Same w (o.renderBlock worker f context) (p.renderBlock worker' g context) := by
  obtain ⟨block, _, _⟩ := o
  obtain ⟨block', _, _⟩ := p
  cases hoptions.block with
  | none => exact Likeness.pure_alike rfl
  | some hprograms => exact hprograms.render_alike hworkers hframe context none

theorem renderInverse_alike (hworkers : par.Workers worker worker') (hframe : par.frames w f g)
    (hoptions : par.Options w f o p) (context : Value) :
    par.Same w (o.renderInverse worker f context) (p.renderInverse worker' g context) :=
  hoptions.inverse.render_alike hworkers hframe context none

theorem isBlock_eq (hoptions : par.Options w f o p) : o.isBlock = p.isBlock := by
  obtain ⟨block, _, _⟩ := o
  obtain ⟨block', _, _⟩ := p
  cases hoptions.block with
  | none => rfl
  | some _ => rfl

theorem swapped_alike (laws : par.Lawful reuse reuse') (hframe : par.frames w f g)
    (hoptions : par.Options w f o p) : par.Options w f (o.swapped f) (p.swapped g) where
  block := .some hoptions.inverse
  inverse := by
    obtain ⟨block, _, _⟩ := o
    obtain ⟨block', _, _⟩ := p
    cases hoptions.block with
    | none => exact laws.noop hframe
    | some hprograms => exact hprograms
  data := hoptions.data

theorem ofFrame_alike (laws : par.Lawful reuse reuse') (hframe : par.frames w f g) :
    par.Options w f (.ofFrame f) (.ofFrame g) :=
  ⟨.none, laws.noop hframe, rfl⟩

end Options

namespace Lawful

/-- What passes the bound of the settings passes an eased one. -/
theorem checkOutput_alike (laws : par.Lawful reuse reuse') (hframe : par.frames w f g)
    (size : Nat) : par.Same w (f.checkOutput size) (g.checkOutput size) := by
  unfold Frame.checkOutput
  rcases (laws.frames_match hframe).settings with hsame | ⟨lenient, heased⟩
  · rw [hsame]
    cases g.settings.maxOutputBytes with
    | none => exact Likeness.pure_alike rfl
    | some limit =>
        by_cases hlimit : limit < size
        · simp only [hlimit, if_true]
          exact laws.refuse_alike _ _
        · simp only [hlimit, if_false]
          exact Likeness.pure_alike rfl
  · cases hlimit : f.settings.maxOutputBytes with
    | none =>
        have hnone : g.settings.maxOutputBytes = none := by
          cases hright : g.settings.maxOutputBytes with
          | none => rfl
          | some limit =>
              obtain ⟨bound, hbound, _⟩ := heased.output limit hright
              cases hlimit.symm.trans hbound
        rw [hnone]
        exact Likeness.pure_alike rfl
    | some bound =>
        by_cases hexceeds : bound < size
        · simp only [hexceeds, if_true]
          exact Likeness.refuse_lenient lenient _ _ _
        · simp only [hexceeds, if_false]
          cases hright : g.settings.maxOutputBytes with
          | none => exact Likeness.pure_alike rfl
          | some limit =>
              obtain ⟨bound', hbound', hle⟩ := heased.output limit hright
              obtain rfl := Option.some.inj (hlimit.symm.trans hbound')
              have hwithin : ¬ limit < size := by omega
              simp only [hwithin, if_false]
              exact Likeness.pure_alike rfl

theorem resolveMissingValue_alike (laws : par.Lawful reuse reuse') (hframe : par.frames w f g)
    (name : String) :
    par.Same w (f.resolveMissingValue name) (g.resolveMissingValue name) := by
  unfold Frame.resolveMissingValue
  rcases (laws.frames_match hframe).settings with hsame | ⟨lenient, heased⟩
  · rw [hsame]
    cases g.settings.missing with
    | asymmetric => exact Likeness.fail_alike _
    | fail => exact Likeness.fail_alike _
    | empty => exact Likeness.pure_alike rfl
  · have hmissing := heased.missing
    cases hleft : f.settings.missing with
    | asymmetric => exact Likeness.fail_lenient lenient _ _
    | fail => exact Likeness.fail_lenient lenient _ _
    | empty =>
        have hright : g.settings.missing = .empty := by
          rw [hleft] at hmissing
          cases hg : g.settings.missing with
          | empty => rfl
          | _ => simp [hg, MissingPolicy.leniency] at hmissing
        rw [hright]
        exact Likeness.pure_alike rfl

theorem resolveMissingBlock_alike (laws : par.Lawful reuse reuse') (hframe : par.frames w f g)
    (name : String) :
    par.Same w (f.resolveMissingBlock name) (g.resolveMissingBlock name) := by
  unfold Frame.resolveMissingBlock
  have hempty : par.Same w (Render.note (.missingBlock name) >>= fun _ => pure "")
      (Render.note (.missingBlock name) >>= fun _ => pure "") :=
    Likeness.bind_alike (laws.note_alike _) fun _ _ _ _ _ => Likeness.pure_alike rfl
  rcases (laws.frames_match hframe).settings with hsame | ⟨lenient, heased⟩
  · rw [hsame]
    cases g.settings.missing with
    | asymmetric => exact hempty
    | fail => exact Likeness.fail_alike _
    | empty => exact hempty
  · have hmissing := heased.missing
    cases hleft : f.settings.missing with
    | fail => exact Likeness.fail_lenient lenient _ _
    | asymmetric =>
        cases hright : g.settings.missing with
        | asymmetric => exact hempty
        | empty => exact hempty
        | fail => simp [hleft, hright, MissingPolicy.leniency] at hmissing
    | empty =>
        cases hright : g.settings.missing with
        | empty => exact hempty
        | _ => simp [hleft, hright, MissingPolicy.leniency] at hmissing

theorem resolveMissing_alike (laws : par.Lawful reuse reuse') (hframe : par.frames w f g)
    (hoptions : par.Options w f o p) (name : String) :
    par.Same w (f.resolveMissing name o) (g.resolveMissing name p) := by
  unfold Frame.resolveMissing
  rw [hoptions.isBlock_eq]
  split
  · exact laws.resolveMissingBlock_alike hframe name
  · apply Likeness.bind_alike (laws.resolveMissingValue_alike hframe name)
    rintro w' _ value _ rfl
    exact Likeness.pure_alike rfl

/-- An iteration: the texts so far are equal, so they are held against the
bound alike. -/
theorem renderEach_alike (laws : par.Lawful reuse reuse') (hworkers : par.Workers worker worker')
    (hframe : par.frames w f g) (hoptions : par.Options w f o p) (items : List Value) :
    par.Same w (f.renderEach worker o items) (g.renderEach worker' p items) := by
  suffices hgo : ∀ soFar, par.Same w (Frame.renderEach.go f worker o soFar items)
      (Frame.renderEach.go g worker' p soFar items) from hgo ""
  induction items generalizing w with
  | nil => exact fun soFar => Likeness.pure_alike rfl
  | cons item rest ih =>
      intro soFar
      simp only [Frame.renderEach.go]
      apply Likeness.bind_alike (hoptions.renderBlock_alike hworkers hframe item)
      rintro w₁ grown₁ text _ rfl
      have hframe₁ := par.frames_grow grown₁ hframe
      apply Likeness.bind_alike (laws.checkOutput_alike hframe₁ _)
      intro w₂ grown₂ _ _ _
      exact ih (par.frames_grow grown₂ hframe₁)
        (hoptions.grow (par.grows_trans grown₁ grown₂)) (soFar ++ text)

theorem renderValueBlock_alike (laws : par.Lawful reuse reuse')
    (hworkers : par.Workers worker worker') (hframe : par.frames w f g)
    (hoptions : par.Options w f o p) (scope context : Value) :
    par.Same w (f.renderValueBlock worker scope context o)
      (g.renderValueBlock worker' scope context p) := by
  unfold Frame.renderValueBlock
  split
  · exact hoptions.renderBlock_alike hworkers hframe scope
  · exact hoptions.renderInverse_alike hworkers hframe scope
  · exact hoptions.renderInverse_alike hworkers hframe scope
  · exact hoptions.renderInverse_alike hworkers hframe scope
  · exact laws.renderEach_alike hworkers hframe hoptions _
  · exact hoptions.renderBlock_alike hworkers hframe _

theorem renderIf_alike (hworkers : par.Workers worker worker') (hframe : par.frames w f g)
    (hoptions : par.Options w f o p) (scope context : Value) :
    par.Same w (f.renderIf worker scope context o) (g.renderIf worker' scope context p) := by
  unfold Frame.renderIf
  split
  · exact hoptions.renderInverse_alike hworkers hframe scope
  · exact hoptions.renderBlock_alike hworkers hframe scope

theorem builtin_alike (laws : par.Lawful reuse reuse') (hworkers : par.Workers worker worker')
    (hframe : par.frames w f g) (hoptions : par.Options w f o p) (helper : Builtin)
    (scope context : Value) :
    par.Same w (helper.call worker f scope context o) (helper.call worker' g scope context p) := by
  match helper with
  | .helperMissing => exact laws.resolveMissing_alike hframe hoptions _
  | .blockHelperMissing =>
      simp only [Builtin.call]
      split
      · apply Likeness.bind_alike (laws.resolve_alike context)
        rintro w' grown resolved _ rfl
        exact laws.renderValueBlock_alike hworkers (par.frames_grow grown hframe)
          (hoptions.grow grown) scope resolved
      · exact laws.renderValueBlock_alike hworkers hframe hoptions scope context
  | .each =>
      simp only [Builtin.call]
      split
      · exact laws.renderEach_alike hworkers hframe hoptions _
      · exact hoptions.renderInverse_alike hworkers hframe scope
  | .ifTruthy => exact renderIf_alike hworkers hframe hoptions scope context
  | .unless =>
      exact renderIf_alike hworkers hframe (hoptions.swapped_alike laws hframe) scope context
  | .within => exact hoptions.renderBlock_alike hworkers hframe context

theorem action_alike (laws : par.Lawful reuse reuse') (hworkers : par.Workers worker worker')
    (hframe : par.frames w f g) (hoptions : par.Options w f o p) {action : Action}
    (hallowed : (par.licence f).AllowsAction action) (scope context : Value) :
    par.Same w (action.call worker f scope context o) (action.call worker' g scope context p) := by
  cases action with
  | builtin helper => exact laws.builtin_alike hworkers hframe hoptions helper scope context
  | nodes body =>
      exact hworkers w _ _ (.nodes ⟨hframe, rfl, rfl, rfl, rfl, .some hoptions⟩ hallowed)

/-- Both sides find the same helper, and it may run. -/
theorem helper_alike (laws : par.Lawful reuse reuse') (hframe : par.frames w f g)
    (name : String) :
    par.Alike w
      (fun _ a b => a = b ∧ ∀ helper ∈ a, (par.licence f).AllowsHelper helper)
      (f.helper? name) (g.helper? name) :=
  Likeness.look_alike fun _ _ hstores => laws.helper hstores hframe name

theorem callHelper_alike (laws : par.Lawful reuse reuse') (hworkers : par.Workers worker worker')
    (hframe : par.frames w f g) (hoptions : par.Options w f o p) (name : String)
    (scope context : Value) :
    par.Same w (f.callHelper worker name scope context o)
      (g.callHelper worker' name scope context p) := by
  unfold Frame.callHelper
  apply Likeness.bind_alike (laws.helper_alike hframe name)
  rintro w₁ grown₁ found _ ⟨rfl, hallowed⟩
  have hframe₁ := par.frames_grow grown₁ hframe
  have hoptions₁ := hoptions.grow grown₁
  cases found with
  | some helper =>
      exact laws.action_alike hworkers hframe₁ hoptions₁ (hallowed helper rfl).1 scope context
  | none =>
      apply Likeness.bind_alike (laws.helper_alike hframe₁ Builtin.helperMissing.name)
      rintro w₂ grown₂ missing _ ⟨rfl, hallowed⟩
      have hframe₂ := par.frames_grow grown₂ hframe₁
      have hoptions₂ := hoptions₁.grow grown₂
      cases missing with
      | some helper =>
          exact laws.action_alike hworkers hframe₂ hoptions₂ (hallowed helper rfl).1 scope _
      | none => exact laws.resolveMissing_alike hframe₂ hoptions₂ name

theorem blockHelperMissing_alike (laws : par.Lawful reuse reuse')
    (hworkers : par.Workers worker worker') (hframe : par.frames w f g)
    (hoptions : par.Options w f o p) (scope context : Value) :
    par.Same w (f.blockHelperMissing worker scope context o)
      (g.blockHelperMissing worker' scope context p) := by
  unfold Frame.blockHelperMissing
  apply Likeness.bind_alike (laws.helper_alike hframe Builtin.blockHelperMissing.name)
  rintro w₁ grown found _ ⟨rfl, hallowed⟩
  have hframe₁ := par.frames_grow grown hframe
  have hoptions₁ := hoptions.grow grown
  cases found with
  | some helper =>
      exact laws.action_alike hworkers hframe₁ hoptions₁ (hallowed helper rfl).1 scope context
  | none => exact laws.builtin_alike hworkers hframe₁ hoptions₁ .blockHelperMissing scope context

theorem invokePartial_alike (laws : par.Lawful reuse reuse')
    (hworkers : par.Workers worker worker') (hframe : par.frames w f g) (name : String)
    (context : Value) :
    par.Same w (f.invokePartial reuse worker name context)
      (g.invokePartial reuse' worker' name context) := by
  unfold Frame.invokePartial
  apply Likeness.bind_alike (laws.finds hframe name)
  intro w' _ t u hopens
  exact hworkers w' _ _ (.template hopens)

end Lawful

end Parallel

end Stencil
