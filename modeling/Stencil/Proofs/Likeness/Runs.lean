import Stencil.Proofs.Likeness.Nodes
import Stencil.Proofs.Likeness.Pages

/-!
Runs of two runtimes side by side. One level of a task is alike when the
workers are, whatever they do; so by induction on the levels all that two
lawful runtimes carry out is alike: equal texts or equal failures, and stores
that stand for each other.
-/

namespace Stencil

namespace Parallel

variable {World : Type} {par : Parallel World} {reuse reuse' : Reuse} {w : World}
  {f g : Frame} {worker worker' : Worker}

namespace Lawful

theorem withFrame_alike (laws : par.Lawful reuse reuse') (hopens : par.opens w f g)
    (hdepth : f.options.depth ≤ f.settings.maxPartialDepth) {action action' : Render α}
    (h : ∀ w', par.frames w' f g → par.Same w' action action') :
    par.Same w (Render.withFrame f action) (Render.withFrame g action') := by
  intro s t hstores
  obtain ⟨inner, hframes, hentered, hleave⟩ := laws.enter hopens hstores hdepth
  have hends := h inner hframes _ _ hentered
  unfold Render.withFrame
  generalize action (s.enter f) = x at hends
  generalize action' (t.enter g) = y at hends
  cases hends with
  | done grown value store =>
      obtain ⟨w', grown', hleft⟩ := hleave grown store
      exact .done grown' value hleft
  | failed e grown store =>
      obtain ⟨w', grown', hleft⟩ := hleave grown store
      exact .failed e grown' hleft
  | exhausted grown store =>
      obtain ⟨w', grown', hleft⟩ := hleave grown store
      exact .exhausted grown' hleft
  | nothing lenient gives => exact .nothing lenient gives

theorem render_frame_alike (laws : par.Lawful reuse reuse') (hworkers : par.Workers worker worker')
    (hframe : par.frames w f g) (hspec : f.template.spec = g.template.spec) (context : Value) :
    par.Same w (f.render worker context) (g.render worker' context) := by
  have hmatch := laws.frames_match hframe
  have hallowed := laws.allows_spec hframe
  unfold Frame.render
  rw [← hspec, ← hmatch.data]
  generalize f.template.spec = spec at hallowed
  cases spec with
  | nodes nodes =>
      exact hworkers w _ _ (.nodes ⟨hframe, rfl, rfl, rfl, rfl, .none⟩ hallowed)
  | page elements => exact laws.page_alike hworkers hframe elements context

/-- A template that is opened in place of another one is refused alike, when
too many partials are open, or rendered alike. -/
theorem template_alike (laws : par.Lawful reuse reuse') (hworkers : par.Workers worker worker')
    {t u : Template} {o p : RenderOptions} (hopens : par.opens w ⟨t, o⟩ ⟨u, p⟩)
    (context : Value) :
    par.Same w (t.render worker context o) (u.render worker' context p) := by
  have hmatch := laws.opens_match hopens
  have hdepth : o.depth = p.depth := hmatch.depth
  unfold Template.render
  rw [← hdepth]
  by_cases hexceeds : t.environment.settings.maxPartialDepth < o.depth
  · simp only [hexceeds, if_true]
    rcases hmatch.settings with hsame | ⟨lenient, _⟩
    · have hlimit : t.environment.settings.maxPartialDepth =
          u.environment.settings.maxPartialDepth := congrArg Settings.maxPartialDepth hsame
      rw [← hlimit]
      simp only [hexceeds, if_true]
      exact laws.refuse_alike _ _
    · exact Likeness.refuse_lenient lenient _ _ _
  · have hwithin : ¬ u.environment.settings.maxPartialDepth < o.depth := by
      have hlimit := hmatch.maxPartialDepth_le
      simp only [Frame.settings, Frame.environment] at hlimit
      omega
    simp only [hexceeds, hwithin, if_false]
    -- The note is made before the frame is opened, so the pair may have grown.
    intro s₀ t₀ hstores
    have hnoted := laws.quiet (·.note (.rendering o.depth)) hstores
      (fun s => s.note_quiet (.rendering o.depth)) fun _ _ hpen => hpen
    exact laws.withFrame_alike hopens (Nat.le_of_not_lt hexceeds)
      (fun w' hframe => laws.render_frame_alike hworkers hframe (laws.opens_spec hopens) context)
      _ _ hnoted

theorem step_alike (laws : par.Lawful reuse reuse') (hworkers : par.Workers worker worker')
    {t u : Task} (htask : par.Tasks w t u) :
    par.Same w (Task.step reuse worker t) (Task.step reuse' worker' u) := by
  cases htask with
  | nodes hscene hallowed =>
      apply Likeness.concat_alike _
      intro w' grown node member
      exact laws.node_alike hworkers (hscene.grow grown) node
        (Licence.allowsNodes_iff.mp hallowed node member)
  | template hopens => exact laws.template_alike hworkers hopens _
  | page hpage =>
      apply Likeness.concat_alike _
      intro w' grown element _
      exact laws.element_alike hworkers (hpage.grow grown) element

/-- Runs of lawful runtimes with the same number of levels are alike. -/
theorem run_alike (laws : par.Lawful reuse reuse') (levels : Nat) :
    par.Workers (Task.run reuse levels) (Task.run reuse' levels) := by
  induction levels with
  | zero => exact fun _ _ _ _ => Likeness.exhausted_alike
  | succ levels ih => exact fun w t u htask => laws.step_alike ih htask

end Lawful

end Parallel

end Stencil
