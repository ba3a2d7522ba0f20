import Stencil.Proofs.Iteration
import Stencil.Proofs.NormalForms

/-!
Branches. A built-in block helper shows its block or its alternative, once, for
the scope of its caller or for its context, or it iterates. Which of that it does
is told here by rules, one for each case; the context alone decides, and no
helper shows both. A block or an alternative that was not given shows nothing.
-/

namespace Stencil

namespace Value

/-- What a conditional takes for false. -/
inductive Lacking : Value → Prop
  | null : Lacking .null
  | no : Lacking (.bool false)
  | zero {n : Number} (h : n.ratio.1 = 0) : Lacking (.number n)
  | blank : Lacking (.string "")
  | vacant : Lacking (.array [])

/-- Values that are no truth and those that are empty are what is lacking. -/
theorem lacking_iff (v : Value) : v.Lacking ↔ (!v.isTruthy || v.isEmpty) = true := by
  constructor
  · rintro (_ | _ | h)
    · rfl
    · rfl
    · simp [isTruthy, isEmpty, (Number.isZero_iff _).mpr h]
    · rfl
    · rfl
  · intro h
    cases v with
    | null => exact .null
    | bool b => cases b <;> simp_all [isTruthy, isEmpty, Lacking.no]
    | number n => exact .zero ((Number.isZero_iff n).mp (by simpa [isTruthy, isEmpty] using h))
    | string s =>
        obtain rfl : s = "" := by simpa [isTruthy, isEmpty] using h
        exact .blank
    | array items =>
        obtain rfl : items = [] := by simpa [isTruthy, isEmpty] using h
        exact .vacant
    | safe s => simp [isTruthy, isEmpty] at h
    | object fields => simp [isTruthy, isEmpty] at h
    | lazy identity result => simp [isTruthy, isEmpty] at h
    | endless identity => simp [isTruthy, isEmpty] at h

end Value

/-- The text of a block or an alternative, if there is one. -/
def Frame.shows (frame : Frame) (worker : Worker) (program : Option Program) (context : Value) :
    Render String :=
  program.elim (pure "") fun program => program.render worker frame context none

/-- What a block helper can do with what it was called with. -/
inductive Branch where
  /-- Show the block for a context. -/
  | block (context : Value)
  /-- Show the alternative for a context. -/
  | inverse (context : Value)
  /-- Show the block for one item after another. -/
  | items (items : List Value)

/-- How a branch ends from a store. -/
inductive Branch.Shows (frame : Frame) (worker : Worker) (block inverse : Option Program)
    (store : Store) : Branch → Outcome String × Store → Prop
  | block (context : Value) :
      Shows frame worker block inverse store (.block context)
        (frame.shows worker block context store)
  | inverse (context : Value) :
      Shows frame worker block inverse store (.inverse context)
        (frame.shows worker inverse context store)
  | items {items : List Value} {result : Outcome String × Store}
      (iterates : frame.Iterates (frame.shows worker block) items store result) :
      Shows frame worker block inverse store (.items items) result

/-- The branch that a built-in helper takes for a scope and a context, and the
store that it goes on from. -/
inductive Builtin.Takes (scope : Value) : Builtin → Value → Store → Branch → Store → Prop
  | ifInverse {context : Value} {store : Store} (h : context.Lacking) :
      Takes scope .ifTruthy context store (.inverse scope) store
  | ifBlock {context : Value} {store : Store} (h : ¬ context.Lacking) :
      Takes scope .ifTruthy context store (.block scope) store
  | unlessBlock {context : Value} {store : Store} (h : context.Lacking) :
      Takes scope .unless context store (.block scope) store
  | unlessInverse {context : Value} {store : Store} (h : ¬ context.Lacking) :
      Takes scope .unless context store (.inverse scope) store
  | within (context : Value) (store : Store) :
      Takes scope .within context store (.block context) store
  | eachItem {items : List Value} {store : Store} (h : items ≠ []) :
      Takes scope .each (.array items) store (.items items) store
  | eachInverse {context : Value} {store : Store}
      (h : ∀ items, context = .array items → items = []) :
      Takes scope .each context store (.inverse scope) store
  /-- A block over a deferred value is one over what that resolves to. -/
  | valueDeferred {context : Value} {store last : Store} {branch : Branch} (h : context.isLazy)
      (resolved : Takes scope .blockHelperMissing context.resolve.value
        (store.tally context.resolve.tally) branch last) :
      Takes scope .blockHelperMissing context store branch last
  | valueNull {store last : Store} {branch : Branch}
      (condition : Takes scope .ifTruthy .null store branch last) :
      Takes scope .blockHelperMissing .null store branch last
  | valueBool {b : Bool} {store last : Store} {branch : Branch}
      (condition : Takes scope .ifTruthy (.bool b) store branch last) :
      Takes scope .blockHelperMissing (.bool b) store branch last
  | valueArray {items : List Value} {store last : Store} {branch : Branch}
      (iteration : Takes scope .each (.array items) store branch last) :
      Takes scope .blockHelperMissing (.array items) store branch last
  | valueOther {context : Value} {store : Store} (hlazy : ¬ context.isLazy)
      (hnull : context ≠ .null) (hbool : ∀ b, context ≠ .bool b)
      (harray : ∀ items, context ≠ .array items) :
      Takes scope .blockHelperMissing context store (.block context) store

theorem HelperOptions.renderBlock_eq (options : HelperOptions) (worker : Worker) (frame : Frame) :
    options.renderBlock worker frame = frame.shows worker options.block := by
  funext context
  unfold renderBlock Frame.shows
  cases options.block with
  | none => rfl
  | some block => rfl

/-- A program without nodes shows nothing, as long as levels are left. -/
theorem Program.render_empty {program : Program} (h : program.body = []) (reuse : Reuse)
    (levels : Nat) (frame : Frame) (context : Value) (data : Option Value) :
    program.render (Task.run reuse (levels + 1)) frame context data = pure "" := by
  unfold Program.render
  rw [h]
  rfl

/-- What a helper is called with when a block and an alternative are given, or
are not. -/
def Frame.optionsFor (frame : Frame) (block inverse : Option Program) (data : Option Value) :
    HelperOptions :=
  ⟨block, inverse.getD frame.template.noop, data⟩

section

variable {frame : Frame} {reuse : Reuse} {levels : Nat} {block inverse : Option Program}
  {data : Option Value} {scope context : Value} {store last : Store} {branch : Branch}
  {helper : Builtin}

theorem Frame.render_getD (hnoop : frame.template.noop.body = []) (program : Option Program)
    (context : Value) :
    (program.getD frame.template.noop).render (Task.run reuse (levels + 1)) frame context none =
      frame.shows (Task.run reuse (levels + 1)) program context := by
  cases program with
  | none => exact Program.render_empty hnoop reuse levels frame context none
  | some program => rfl

/-- A deferred value is resolved once, and that does not give another one. -/
theorem Builtin.call_deferred (hlazy : context.isLazy) (worker : Worker) (frame : Frame)
    (scope : Value) (options : HelperOptions) (store : Store) :
    Builtin.blockHelperMissing.call worker frame scope context options store =
      Builtin.blockHelperMissing.call worker frame scope context.resolve.value options
        (store.tally context.resolve.tally) := by
  have hresolved : ¬ context.resolve.value.isLazy :=
    Value.resolveWithin_not_isLazy maxLazyDepth context
  simp only [Builtin.call, hlazy, if_true, hresolved]
  rfl

theorem Frame.renderIf_lacking (h : context.Lacking) (worker : Worker) (frame : Frame)
    (scope : Value) (options : HelperOptions) :
    frame.renderIf worker scope context options = options.renderInverse worker frame scope :=
  if_pos ((Value.lacking_iff context).mp h)

theorem Frame.renderIf_not_lacking (h : ¬ context.Lacking) (worker : Worker) (frame : Frame)
    (scope : Value) (options : HelperOptions) :
    frame.renderIf worker scope context options = options.renderBlock worker frame scope :=
  if_neg (mt (Value.lacking_iff context).mpr h)

theorem Frame.renderValueBlock_other (hnull : context ≠ .null) (hbool : ∀ b, context ≠ .bool b)
    (harray : ∀ items, context ≠ .array items) (worker : Worker) (frame : Frame) (scope : Value)
    (options : HelperOptions) :
    frame.renderValueBlock worker scope context options =
      options.renderBlock worker frame context := by
  cases context with
  | null => exact absurd rfl hnull
  | bool b => exact absurd rfl (hbool b)
  | array items => exact absurd rfl (harray items)
  | _ => rfl

/-- A helper does what the branch says that it takes. -/
theorem Builtin.Takes.shows (h : helper.Takes scope context store branch last)
    (hnoop : frame.template.noop.body = []) :
    branch.Shows frame (Task.run reuse (levels + 1)) block inverse last
      (helper.call (Task.run reuse (levels + 1)) frame scope context
        (frame.optionsFor block inverse data) store) := by
  let worker := Task.run reuse (levels + 1)
  let options := frame.optionsFor block inverse data
  have hblock : options.renderBlock worker frame = frame.shows worker block :=
    options.renderBlock_eq worker frame
  have hinverse : ∀ context, options.renderInverse worker frame context =
      frame.shows worker inverse context := Frame.render_getD hnoop inverse
  show branch.Shows frame worker block inverse last
    (helper.call worker frame scope context options store)
  induction h with
  | ifInverse h =>
      simp only [Builtin.call, Frame.renderIf_lacking h, hinverse]
      exact .inverse scope
  | ifBlock h =>
      simp only [Builtin.call, Frame.renderIf_not_lacking h, hblock]
      exact .block scope
  | unlessBlock h =>
      -- The block is the alternative now, and the program for a missing one renders nothing.
      have hswapped : (options.swapped frame).renderInverse worker frame scope =
          frame.shows worker block scope := Frame.render_getD hnoop block scope
      simp only [Builtin.call, Frame.renderIf_lacking h, hswapped]
      exact .block scope
  | unlessInverse h =>
      have hswapped : (options.swapped frame).renderBlock worker frame scope =
          frame.shows worker inverse scope := hinverse scope
      simp only [Builtin.call, Frame.renderIf_not_lacking h, hswapped]
      exact .inverse scope
  | within context store =>
      simp only [Builtin.call, hblock]
      exact .block context
  | @eachItem items store h =>
      have hends := frame.renderEach_iterates worker options items store
      rw [hblock] at hends
      rw [Builtin.call_array (.inl rfl) h]
      exact .items hends
  | @eachInverse context store h =>
      simp only [Builtin.call]
      split
      · next item rest => exact absurd (h _ rfl) (List.cons_ne_nil item rest)
      · rw [hinverse]
        exact .inverse scope
  | valueDeferred hlazy resolved ih =>
      rw [Builtin.call_deferred hlazy]
      exact ih
  | valueNull condition ih => exact ih
  | @valueBool b store last branch condition ih => cases b <;> exact ih
  | @valueArray items store last branch iteration ih => cases items <;> exact ih
  | @valueOther context store hlazy hnull hbool harray =>
      simp only [Builtin.call, hlazy, Frame.renderValueBlock_other hnull hbool harray, hblock]
      exact .block context

/-- There is a branch for every context. -/
theorem Builtin.exists_takes (hhelper : helper ≠ .helperMissing) (scope context : Value)
    (store : Store) : ∃ branch last, helper.Takes scope context store branch last := by
  have hif : ∀ context store, ∃ branch last,
      Builtin.ifTruthy.Takes scope context store branch last := by
    intro context store
    by_cases h : context.Lacking
    · exact ⟨_, _, .ifInverse h⟩
    · exact ⟨_, _, .ifBlock h⟩
  have heach : ∀ context store, ∃ branch last,
      Builtin.each.Takes scope context store branch last := by
    intro context store
    by_cases h : ∀ items, context = .array items → items = []
    · exact ⟨_, _, .eachInverse h⟩
    · obtain ⟨items, hcontext⟩ := not_forall.mp h
      obtain ⟨rfl, hitems⟩ := Classical.not_imp.mp hcontext
      exact ⟨_, _, .eachItem hitems⟩
  have hvalue : ∀ context store, ¬ context.isLazy → ∃ branch last,
      Builtin.blockHelperMissing.Takes scope context store branch last := by
    intro context store hlazy
    cases context with
    | null =>
        obtain ⟨branch, last, htakes⟩ := hif .null store
        exact ⟨branch, last, .valueNull htakes⟩
    | bool b =>
        obtain ⟨branch, last, htakes⟩ := hif (.bool b) store
        exact ⟨branch, last, .valueBool htakes⟩
    | array items =>
        obtain ⟨branch, last, htakes⟩ := heach (.array items) store
        exact ⟨branch, last, .valueArray htakes⟩
    | _ => exact ⟨_, _, .valueOther hlazy nofun nofun nofun⟩
  match helper with
  | .helperMissing => exact absurd rfl hhelper
  | .blockHelperMissing =>
      by_cases hlazy : context.isLazy
      · have hresolved : ¬ context.resolve.value.isLazy :=
          Value.resolveWithin_not_isLazy maxLazyDepth context
        obtain ⟨branch, last, htakes⟩ :=
          hvalue context.resolve.value (store.tally context.resolve.tally) hresolved
        exact ⟨branch, last, .valueDeferred hlazy htakes⟩
      · exact hvalue context store hlazy
  | .each => exact heach context store
  | .ifTruthy => exact hif context store
  | .unless =>
      by_cases h : context.Lacking
      · exact ⟨_, _, .unlessBlock h⟩
      · exact ⟨_, _, .unlessInverse h⟩
  | .within => exact ⟨_, _, .within context store⟩

/-- There is no other one. -/
theorem Builtin.Takes.unique {other : Branch} {last' : Store}
    (h : helper.Takes scope context store branch last)
    (h' : helper.Takes scope context store other last') : other = branch ∧ last' = last := by
  induction h generalizing other last' with
  | ifInverse h =>
      cases h' with
      | ifInverse => exact ⟨rfl, rfl⟩
      | ifBlock hnot => exact absurd h hnot
  | ifBlock h =>
      cases h' with
      | ifInverse hlacking => exact absurd hlacking h
      | ifBlock => exact ⟨rfl, rfl⟩
  | unlessBlock h =>
      cases h' with
      | unlessBlock => exact ⟨rfl, rfl⟩
      | unlessInverse hnot => exact absurd h hnot
  | unlessInverse h =>
      cases h' with
      | unlessBlock hlacking => exact absurd hlacking h
      | unlessInverse => exact ⟨rfl, rfl⟩
  | within context store =>
      cases h'
      exact ⟨rfl, rfl⟩
  | eachItem h =>
      cases h' with
      | eachItem => exact ⟨rfl, rfl⟩
      | eachInverse hempty => exact absurd (hempty _ rfl) h
  | eachInverse h =>
      cases h' with
      | eachItem hitems => exact absurd (h _ rfl) hitems
      | eachInverse => exact ⟨rfl, rfl⟩
  | valueDeferred hlazy resolved ih =>
      cases h' with
      | valueDeferred _ resolved' => exact ih resolved'
      | valueNull => simp [Value.isLazy] at hlazy
      | valueBool => simp [Value.isLazy] at hlazy
      | valueArray => simp [Value.isLazy] at hlazy
      | valueOther hsettled => exact absurd hlazy hsettled
  | valueNull condition ih =>
      cases h' with
      | valueDeferred hlazy => simp [Value.isLazy] at hlazy
      | valueNull condition' => exact ih condition'
      | valueOther _ hnull => exact absurd rfl hnull
  | valueBool condition ih =>
      cases h' with
      | valueDeferred hlazy => simp [Value.isLazy] at hlazy
      | valueBool condition' => exact ih condition'
      | valueOther _ _ hbool => exact absurd rfl (hbool _)
  | valueArray iteration ih =>
      cases h' with
      | valueDeferred hlazy => simp [Value.isLazy] at hlazy
      | valueArray iteration' => exact ih iteration'
      | valueOther _ _ _ harray => exact absurd rfl (harray _)
  | valueOther hlazy hnull hbool harray =>
      cases h' with
      | valueDeferred hdeferred => exact absurd hdeferred hlazy
      | valueNull => exact absurd rfl hnull
      | valueBool => exact absurd rfl (hbool _)
      | valueArray => exact absurd rfl (harray _)
      | valueOther => exact ⟨rfl, rfl⟩

/-- Of block and alternative there is one that does not matter to a branch. -/
theorem Branch.Shows.ignores {worker : Worker} {result : Outcome String × Store}
    (h : branch.Shows frame worker block inverse store result) :
    (∀ other result', branch.Shows frame worker block other store result' → result' = result) ∨
      ∀ other result', branch.Shows frame worker other inverse store result' →
        result' = result := by
  cases h with
  | block context =>
      refine .inl fun other result' h' => ?_
      cases h'
      rfl
  | inverse context =>
      refine .inr fun other result' h' => ?_
      cases h'
      rfl
  | items iterates =>
      refine .inl fun other result' h' => ?_
      cases h' with
      | items iterates' =>
          let options : HelperOptions := ⟨block, frame.template.noop, none⟩
          have hblock : frame.shows worker block = options.renderBlock worker frame :=
            (options.renderBlock_eq worker frame).symm
          rw [hblock] at iterates iterates'
          exact iterates'.renderEach_eq.symm.trans iterates.renderEach_eq

end

/-- A block helper takes one branch, which the rules tell, and does nothing else.
So it never shows both the block and the alternative: one of the two could be any
other one. A deferred context of a block over a value is resolved once, with one
evaluation for each deferred value that comes up; what that gives is not deferred
again, and is null if the chain is too long. -/
theorem Builtin.takes_one_branch {helper : Builtin} (hhelper : helper ≠ .helperMissing)
    (reuse : Reuse) (levels : Nat) (maker : Store) (environment : Environment) (spec : Spec)
    (given : RenderOptions) (block inverse : Option Program) (data : Option Value)
    (scope context : Value) (store : Store) :
    let frame : Frame := ⟨(maker.newTemplate environment spec).1, given⟩
    let worker := Task.run reuse (levels + 1)
    let call := fun block inverse =>
      helper.call worker frame scope context (frame.optionsFor block inverse data) store
    (∃ branch last, helper.Takes scope context store branch last ∧
      branch.Shows frame worker block inverse last (call block inverse) ∧
      ∀ other last', helper.Takes scope context store other last' →
        other = branch ∧ last' = last) ∧
    ((∀ other, call block other = call block inverse) ∨
      ∀ other, call other inverse = call block inverse) ∧
    ¬ context.resolve.value.isLazy ∧
    context.resolve.value =
      (if (Value.evaluate^[maxLazyDepth] context).isLazy then .null
        else Value.evaluate^[maxLazyDepth] context) ∧
    context.resolve.calls =
      (List.range maxLazyDepth).countP fun i => (Value.evaluate^[i] context).isLazy := by
  intro frame worker call
  obtain ⟨branch, last, htakes⟩ := Builtin.exists_takes hhelper scope context store
  have hshows : ∀ block inverse,
      branch.Shows frame worker block inverse last (call block inverse) :=
    fun block inverse => htakes.shows rfl
  refine ⟨⟨branch, last, htakes, hshows block inverse, fun _ _ => htakes.unique⟩, ?_,
    Value.resolveWithin_not_isLazy maxLazyDepth context,
    Value.resolveWithin_value maxLazyDepth context, Value.resolveWithin_calls maxLazyDepth context⟩
  rcases (hshows block inverse).ignores with hinverse | hblock
  · exact .inl fun other => hinverse other _ (hshows block other)
  · exact .inr fun other => hblock other _ (hshows other inverse)

namespace DeferredList

def environment : Environment := ⟨0, 0, {}, none, .standard⟩

def frame : Frame := ⟨(Store.empty.newTemplate environment (.nodes [])).1, {}⟩

def block : Program := ⟨1, [.escaped (.this none), .text ";"], none, []⟩

def context : Value := .lazy 0 (.lazy 1 (.array [.string "a", .string "b"]))

theorem call : (Builtin.blockHelperMissing.call (Task.run {} 2) frame .null context
    (frame.optionsFor (some block) none none) .empty).1 = .done "a;b;" := by decide +kernel

theorem evaluations : (Store.empty.tally context.resolve.tally).evaluations = 2 := by
  decide +kernel

end DeferredList

/-- A block over a list that is deferred twice, without an alternative: two
evaluations are made, and then the block is shown for each item. -/
theorem Builtin.takes_one_branch_deferred :
    (Builtin.blockHelperMissing.call (Task.run {} 2) DeferredList.frame .null DeferredList.context
        (DeferredList.frame.optionsFor (some DeferredList.block) none none) .empty).1 =
      .done "a;b;" ∧
    ∃ last, last.evaluations = 2 ∧
      Builtin.blockHelperMissing.Takes .null DeferredList.context .empty
        (.items [.string "a", .string "b"]) last ∧
      Branch.Shows DeferredList.frame (Task.run {} 2) (some DeferredList.block) none last
        (.items [.string "a", .string "b"])
        (Builtin.blockHelperMissing.call (Task.run {} 2) DeferredList.frame .null
          DeferredList.context
          (DeferredList.frame.optionsFor (some DeferredList.block) none none) .empty) := by
  have hhelper : Builtin.blockHelperMissing ≠ .helperMissing := nofun
  obtain ⟨⟨branch, last, htakes, hshows, hunique⟩, _⟩ := Builtin.takes_one_branch hhelper {} 1
    .empty DeferredList.environment (.nodes []) {} (some DeferredList.block) none none .null
    DeferredList.context .empty
  have hitems : Builtin.blockHelperMissing.Takes .null DeferredList.context .empty
      (.items [.string "a", .string "b"])
      (Store.empty.tally DeferredList.context.resolve.tally) :=
    .valueDeferred rfl (.valueArray (.eachItem (List.cons_ne_nil _ _)))
  obtain ⟨rfl, rfl⟩ := hunique _ _ hitems
  exact ⟨DeferredList.call, _, DeferredList.evaluations, hitems, hshows⟩

end Stencil
