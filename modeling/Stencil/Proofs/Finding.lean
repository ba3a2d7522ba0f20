import Stencil.Proofs.Likeness.Parallel

/-!
How the template of a partial is found. A reference to a partial ends in one of
five ways, and each of them tells what it left in the store: nothing changed,
or a source was given to the compiler, and then either it was refused or a new
template was made of it.
-/

namespace Stencil

namespace Store

/-- The store after a source was given to a compiler. -/
def attempted (store : Store) (compilation : Compilation) : Store :=
  (store.note (.compiling compilation.name)).compiled compilation

/-- The store after a template was made of a source; it takes the place of the
source if templates are kept. -/
def settled (store : Store) (reuse : Reuse) (registry : Nat) (name : String)
    (template : Template) : Store :=
  if reuse.partials then store.registerPartial registry name (.compiled template) else store

theorem settled_kept (store : Store) (registry : Nat) (name : String) (template : Template) :
    store.settled {} registry name template =
      store.registerPartial registry name (.compiled template) := rfl

end Store

namespace Render

/-- What the compiler of an environment leaves behind. -/
theorem compile_run {environment : Environment} {compiler : Compiler}
    (hcompiler : environment.compiler = some compiler) (registry : Nat) (name source : String)
    (store : Store) :
    compile environment registry name source store =
      match compiler.answer store.attempts source with
      | .error cause =>
        (.failed (.compilation name cause), store.attempted ⟨registry, name, false⟩)
      | .ok spec =>
        let (template, after) :=
          (store.attempted ⟨registry, name, true⟩).newTemplate environment spec
        (.done template, after) := by
  have hattempts : (store.note (.compiling name)).attempts = store.attempts := rfl
  simp only [compile, hcompiler, note, bind_run, update, look, hattempts]
  cases compiler.answer store.attempts source with
  | error cause => rfl
  | ok spec => rfl

theorem settle_run (reuse : Reuse) (registry : Nat) (name : String) (template : Template)
    (store : Store) :
    (if reuse.partials then
        update (·.registerPartial registry name (.compiled template)) >>= fun _ => pure template
      else pure template) store =
      (.done template, store.settled reuse registry name template) := by
  unfold Store.settled
  cases reuse.partials with
  | true => rfl
  | false => rfl

end Render

/-- What the compiler of an environment makes of a source at some time. -/
def Environment.Compiles (environment : Environment) (source : String) (spec : Spec) : Prop :=
  ∃ compiler attempts, environment.compiler = some compiler ∧
    compiler.answer attempts source = .ok spec

namespace Frame

/-- The ways in which a reference to a partial ends. -/
inductive Finds (frame : Frame) (reuse : Reuse) (name : String) (store : Store) :
    Outcome Template × Store → Prop
  | missing (found : store.entry? frame name = none) :
      Finds frame reuse name store (.failed (.missingPartial name), store)
  | compiled {template : Template} (found : store.entry? frame name = some (.compiled template)) :
      Finds frame reuse name store (.done template, store)
  | unavailable {source : String} (found : store.entry? frame name = some (.source source))
      (without : frame.environment.compiler = none) :
      Finds frame reuse name store (.failed (.compilationUnavailable name), store)
  | rejected {source : String} {compiler : Compiler} {cause : Cause}
      (found : store.entry? frame name = some (.source source))
      (given : frame.environment.compiler = some compiler)
      (answer : compiler.answer store.attempts source = .error cause) :
      Finds frame reuse name store
        (.failed (.compilation name cause),
          store.attempted ⟨store.partialHome frame name, name, false⟩)
  | accepted {source : String} {compiler : Compiler} {spec : Spec} {template : Template}
      {after : Store} (found : store.entry? frame name = some (.source source))
      (given : frame.environment.compiler = some compiler)
      (answer : compiler.answer store.attempts source = .ok spec)
      (made : (store.attempted ⟨store.partialHome frame name, name, true⟩).newTemplate
        frame.environment spec = (template, after)) :
      Finds frame reuse name store
        (.done template, after.settled reuse (store.partialHome frame name) name template)

section

variable {frame : Frame} {reuse : Reuse} {name source : String} {store : Store}
  {template : Template} {compiler : Compiler} {cause : Cause} {spec : Spec}

theorem partialTemplate_run (frame : Frame) (reuse : Reuse) (name : String) (store : Store) :
    frame.partialTemplate reuse name store =
      Render.partialTemplate reuse (store.entry? frame name) name (store.partialHome frame name)
        frame.environment store := rfl

theorem partialTemplate_missing (found : store.entry? frame name = none) :
    frame.partialTemplate reuse name store = (.failed (.missingPartial name), store) := by
  rw [partialTemplate_run, found]
  rfl

theorem partialTemplate_compiled (found : store.entry? frame name = some (.compiled template)) :
    frame.partialTemplate reuse name store = (.done template, store) := by
  rw [partialTemplate_run, found]
  rfl

theorem partialTemplate_unavailable (found : store.entry? frame name = some (.source source))
    (without : frame.environment.compiler = none) :
    frame.partialTemplate reuse name store = (.failed (.compilationUnavailable name), store) := by
  rw [partialTemplate_run, found]
  simp only [Render.partialTemplate, Render.bind_run, Render.compile, without]
  rfl

theorem partialTemplate_rejected (found : store.entry? frame name = some (.source source))
    (given : frame.environment.compiler = some compiler)
    (answer : compiler.answer store.attempts source = .error cause) :
    frame.partialTemplate reuse name store =
      (.failed (.compilation name cause),
        store.attempted ⟨store.partialHome frame name, name, false⟩) := by
  rw [partialTemplate_run, found]
  simp only [Render.partialTemplate, Render.bind_run, Render.compile_run given, answer]

theorem partialTemplate_accepted (found : store.entry? frame name = some (.source source))
    (given : frame.environment.compiler = some compiler)
    (answer : compiler.answer store.attempts source = .ok spec) :
    frame.partialTemplate reuse name store =
      let (template, after) := (store.attempted
        ⟨store.partialHome frame name, name, true⟩).newTemplate frame.environment spec
      (.done template, after.settled reuse (store.partialHome frame name) name template) := by
  rw [partialTemplate_run, found]
  simp only [Render.partialTemplate, Render.bind_run, Render.compile_run given, answer]
  exact Render.settle_run reuse _ name _ _

end

/-- What comes of a source that is accepted. -/
def accepted (frame : Frame) (reuse : Reuse) (name : String) (spec : Spec) (store : Store) :
    Outcome Template × Store :=
  let (template, after) := (store.attempted
    ⟨store.partialHome frame name, name, true⟩).newTemplate frame.environment spec
  (.done template, after.settled reuse (store.partialHome frame name) name template)

/-- A source is found on two sides whose compilers answer the same. So it is
refused on both, or accepted on both. -/
theorem source_ends {World : Type} {like : Likeness World} {w : World}
    {values : World → Template → Template → Prop} {f g : Frame} {reuse reuse' : Reuse}
    {name source : String} {s t : Store} (hstores : like.stores w s t)
    (hattempted : ∀ first second, like.stores w (s.attempted first) (t.attempted second))
    (hleft : s.entry? f name = some (.source source))
    (hright : t.entry? g name = some (.source source))
    (hcompiler : g.environment.compiler = f.environment.compiler)
    (hanswers : ∀ compiler, f.environment.compiler = some compiler →
      compiler.answer t.attempts source = compiler.answer s.attempts source)
    (haccepted : ∀ compiler spec, f.environment.compiler = some compiler →
      compiler.answer s.attempts source = .ok spec →
      like.Ends w values (f.accepted reuse name spec s) (g.accepted reuse' name spec t)) :
    like.Ends w values (f.partialTemplate reuse name s) (g.partialTemplate reuse' name t) := by
  cases hgiven : f.environment.compiler with
  | none =>
      rw [partialTemplate_unavailable hleft hgiven,
        partialTemplate_unavailable hright (hcompiler.trans hgiven)]
      exact .failed _ (like.grows_refl w) hstores
  | some compiler =>
      have hgiven' := hcompiler.trans hgiven
      have hsame := hanswers compiler hgiven
      cases hanswer : compiler.answer s.attempts source with
      | error cause =>
          rw [partialTemplate_rejected hleft hgiven hanswer,
            partialTemplate_rejected hright hgiven' (hsame.trans hanswer)]
          exact .failed _ (like.grows_refl w) (hattempted _ _)
      | ok spec =>
          rw [partialTemplate_accepted hleft hgiven hanswer,
            partialTemplate_accepted hright hgiven' (hsame.trans hanswer)]
          exact haccepted compiler spec hgiven hanswer

theorem finds_partialTemplate (frame : Frame) (reuse : Reuse) (name : String) (store : Store) :
    frame.Finds reuse name store (frame.partialTemplate reuse name store) := by
  cases hfound : store.entry? frame name with
  | none =>
      rw [partialTemplate_missing hfound]
      exact .missing hfound
  | some entry =>
      cases entry with
      | compiled template =>
          rw [partialTemplate_compiled hfound]
          exact .compiled hfound
      | source source =>
          cases hcompiler : frame.environment.compiler with
          | none =>
              rw [partialTemplate_unavailable hfound hcompiler]
              exact .unavailable hfound hcompiler
          | some compiler =>
              cases hanswer : compiler.answer store.attempts source with
              | error cause =>
                  rw [partialTemplate_rejected hfound hcompiler hanswer]
                  exact .rejected hfound hcompiler hanswer
              | ok spec =>
                  rw [partialTemplate_accepted hfound hcompiler hanswer]
                  exact .accepted hfound hcompiler hanswer rfl

end Frame

end Stencil
