import Stencil.Proofs.Plays.Helpers

/-!
Plays of generated programs. Expressions, options and nodes ask for texts one
after another, each with what the ones before it gave. Only a node that handles
failures is no play, and that is what a licence may forbid.
-/

namespace Stencil

variable {licence : Licence} {scene : Scene}

namespace Plays

theorem alarms_requestProgram (template : Template) (index : Nat) (body : List Node)
    (data : Option Value) (store : Store) :
    (Render.requestProgram template index body data store).2.alarms = store.alarms := by
  simp only [Render.requestProgram, Render.bind_run, Render.look, Render.update]
  split
  · exact Store.alarms_note _ _
  · rfl

/-- The program of a block, from a slot or new. -/
theorem requestProgram (template : Template) (index : Nat) {body : List Node}
    (data : Option Value) (hallowed : licence.AllowsNodes body) :
    Plays licence .called (fun program => licence.AllowsNodes program.body)
      fun _ => Render.requestProgram template index body data := by
  refine .alone fun store hstore => ?_
  obtain ⟨program, after, hrun, hrequests⟩ := template.requests_program index body data store
  obtain ⟨hbody, hafter⟩ := hstore.requests hallowed hrequests
  have halarms := alarms_requestProgram template index body data store
  rw [hrun] at halarms
  refine ⟨_, after, hrun, fun hends => (nomatch hends), ?_, fun _ hfailed => nomatch hfailed⟩
  rintro _ ⟨⟩
  exact ⟨hbody, hafter, halarms⟩

theorem newProgram {body : List Node} (data : Option Value) (depths : List Value)
    (hallowed : licence.AllowsNodes body) :
    Plays licence .called (fun program => licence.AllowsNodes program.body)
      fun _ => Render.newProgram body data depths := by
  refine .alone fun store hstore => ?_
  refine ⟨_, _, rfl, fun hends => (nomatch hends), ?_, fun _ hfailed => nomatch hfailed⟩
  rintro _ ⟨⟩
  exact ⟨hallowed, hstore.congr rfl rfl rfl, rfl⟩

end Plays

namespace Scene

theorem value_plays (hscene : scene.Keeps licence) :
    ∀ e : Expr, licence.AllowsExpr e →
      Plays licence .called (fun _ => True) fun worker => scene.value worker e
  | .this _, _ => .pure trivial
  | .scope _, _ => .pure trivial
  | .data _, _ => .pure trivial
  | .ancestor _ _, _ => .pure trivial
  | .optionsData _, _ => .pure trivial
  | .literal _, _ => .pure trivial
  | .hasData, _ => .pure trivial
  | .nesting, _ => .pure trivial
  | .resolved e, h => (value_plays hscene e h).bind fun v _ => .resolve v
  | .field e _, h => (value_plays hscene e h).bind fun _ _ => .pure trivial
  | .safe e, h => (value_plays hscene e h).bind fun _ _ => .pure trivial
  | .rendered _, h => (Plays.nodes hscene h).bind fun _ _ => .pure trivial
  | .missingValue name, _ => scene.frame.resolveMissingValue_plays name
termination_by structural e => e

theorem value?_plays (hscene : scene.Keeps licence) (e : Option Expr)
    (h : licence.AllowsExpr? e) :
    Plays licence .called (fun _ => True) fun worker => scene.value? worker e := by
  cases e with
  | none => exact .pure trivial
  | some e => exact (value_plays hscene e h).map some fun _ _ => trivial

theorem program_plays (hscene : scene.Keeps licence) (p : ProgramExpr)
    (h : licence.AllowsProgram p) :
    Plays licence .called (fun program => licence.AllowsNodes program.body)
      fun worker => scene.program {} worker p := by
  cases p with
  | cached index body data =>
      obtain ⟨_, hbody, hdata⟩ := h
      exact (value?_plays hscene data hdata).bind fun value _ =>
        .requestProgram scene.frame.template index value hbody
  | nested body data depths =>
      obtain ⟨hbody, hdata, hdepths⟩ := h
      refine (value?_plays hscene data hdata).bind fun value _ => ?_
      have hvalues : Plays licence .called (fun _ => True)
          fun worker => depths.mapM fun e => scene.value worker e :=
        .mapM depths fun e member =>
          value_plays hscene e (Licence.allowsExprs_iff.mp hdepths e member)
      exact hvalues.bind fun values _ => .newProgram value values hbody
  | plain body data =>
      obtain ⟨hbody, hdata⟩ := h
      exact (value?_plays hscene data hdata).bind fun value _ => .newProgram value [] hbody
  | noop => exact .pure hscene.template.noop
  | block =>
      refine .pure ?_
      obtain ⟨_, _, _, _, _, options⟩ := scene
      cases options with
      | none => exact hscene.template.noop
      | some options =>
          obtain ⟨block, inverse, data⟩ := options
          cases block with
          | none => exact hscene.template.noop
          | some block => exact (hscene.options _ rfl).block block rfl
  | inverse =>
      refine .pure ?_
      obtain ⟨_, _, _, _, _, options⟩ := scene
      cases options with
      | none => exact hscene.template.noop
      | some options => exact (hscene.options _ rfl).inverse

theorem program?_plays (hscene : scene.Keeps licence) (p : Option ProgramExpr)
    (h : licence.AllowsProgram? p) :
    Plays licence .called (fun found => ∀ program ∈ found, licence.AllowsNodes program.body)
      fun worker => scene.program? {} worker p := by
  cases p with
  | none => exact .pure fun _ hnone => nomatch hnone
  | some p =>
      refine (program_plays hscene p h).map some ?_
      rintro program hprogram _ ⟨⟩
      exact hprogram

/-- What a helper is called with runs nothing but what is written here, or what
the helper around it was called with. -/
theorem helperOptions_plays (hscene : scene.Keeps licence) (o : OptionsExpr)
    (h : licence.AllowsOptions o) :
    Plays licence .called (·.Keeps licence) fun worker => scene.helperOptions {} worker o := by
  obtain ⟨inherits, block, inverse, data, swaps⟩ := o
  obtain ⟨hblock, hinverse, hdata⟩ := h
  simp only [Scene.helperOptions]
  have hfresh := HelperOptions.ofFrame_keeps hscene.template
  have hbase : HelperOptions.Keeps licence
      (if inherits then scene.options.getD (.ofFrame scene.frame) else .ofFrame scene.frame) := by
    split
    · obtain ⟨_, _, _, _, _, options⟩ := scene
      cases options with
      | none => exact hfresh
      | some options => exact hscene.options options rfl
    · exact hfresh
  generalize (if inherits then scene.options.getD (.ofFrame scene.frame)
    else .ofFrame scene.frame) = base at hbase ⊢
  refine (program?_plays hscene block hblock).bind fun p hp => ?_
  refine (program?_plays hscene inverse hinverse).bind fun q hq => ?_
  refine (value?_plays hscene data hdata).bind fun v _ => .pure ?_
  have hoptions : HelperOptions.Keeps licence
      ⟨p.or base.block, q.getD base.inverse, v.or base.data⟩ := by
    constructor
    · intro program hprogram
      cases p with
      | none => exact hbase.block program hprogram
      | some p => exact hp program hprogram
    · cases q with
      | none => exact hbase.inverse
      | some q => exact hq q rfl
  split
  · exact HelperOptions.swapped_keeps hscene.template hoptions
  · exact hoptions

theorem call_plays (hscene : scene.Keeps licence) {e : Expr} {o : OptionsExpr}
    {call : Value → HelperOptions → Worker → Render String} (he : licence.AllowsExpr e)
    (ho : licence.AllowsOptions o)
    (hcall : ∀ v p, p.Keeps licence → Plays licence .called (fun _ => True) (call v p)) :
    Plays licence .called (fun _ => True) fun worker =>
      scene.value worker e >>= fun v => scene.helperOptions {} worker o >>= fun p =>
        call v p worker :=
  (value_plays hscene e he).bind fun v _ =>
    (helperOptions_plays hscene o ho).bind fun p hp => hcall v p hp

end Scene

end Stencil
