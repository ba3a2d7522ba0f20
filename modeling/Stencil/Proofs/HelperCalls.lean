import Stencil.Render.Run

/-!
Calls of helpers by name. A frame knows a helper if the override registry has
it, or else if the registry of the environment does. A call goes to the helper
of its name; a name that nobody knows becomes the context of the helper that
stands in for unknown ones, which is looked for in the same order. If that is the
built-in one, or if there is none, the settings say how the call ends, and nothing
is rendered.
-/

namespace Stencil

/-- The helper that a frame knows by a name. The override registry, if there is
one, goes before the registry of the environment. -/
inductive Frame.Knows (frame : Frame) (store : Store) (name : String) : Helper → Prop
  | override {registry : Nat} {helper : Helper} (given : frame.options.helpers = some registry)
      (found : (store.helpersOf registry).get? name = some helper) :
      Knows frame store name helper
  | environment {helper : Helper}
      (lacking : ∀ registry, frame.options.helpers = some registry →
        (store.helpersOf registry).get? name = none)
      (found : (store.helpersOf frame.environment.helpers).get? name = some helper) :
      Knows frame store name helper

/-- What answers a call. -/
inductive Respondent where
  /-- A helper, called with a context. -/
  | helper (helper : Helper) (context : Value)
  /-- Nothing but what the settings say of unknown helpers. -/
  | policy

/-- The text of what answers a call of a name. -/
def Respondent.render (frame : Frame) (worker : Worker) (name : String) (scope : Value)
    (options : HelperOptions) : Respondent → Render String
  | .helper called context => called.action.call worker frame scope context options
  | .policy => frame.resolveMissing name options

/-- What answers a call of a name with a context. -/
inductive Frame.AnsweredBy (frame : Frame) (store : Store) (name : String) (context : Value) :
    Respondent → Prop
  | named {helper : Helper} (known : frame.Knows store name helper) :
      AnsweredBy frame store name context (.helper helper context)
  | standIn {helper : Helper} (unknown : ∀ other, ¬ frame.Knows store name other)
      (known : frame.Knows store Builtin.helperMissing.name helper) :
      AnsweredBy frame store name context (.helper helper (.string name))
  | nobody (unknown : ∀ other, ¬ frame.Knows store name other)
      (without : ∀ other, ¬ frame.Knows store Builtin.helperMissing.name other) :
      AnsweredBy frame store name context .policy

/-- How a call of an unknown name ends that is left to the settings. It matters
whether the call has a block, but not which one. -/
inductive MissingPolicy.Ends (name : String) (store : Store) :
    MissingPolicy → Bool → Outcome String × Store → Prop
  | plainRefused {policy : MissingPolicy} (h : policy ≠ .empty) :
      Ends name store policy false (.failed (.missingProperty name), store)
  | plainEmpty : Ends name store .empty false (.done "", store)
  | blockRefused : Ends name store .fail true (.failed (.missingProperty name), store)
  | blockEmpty {policy : MissingPolicy} (h : policy ≠ .fail) :
      Ends name store policy true (.done "", store.note (.missingBlock name))

theorem MissingPolicy.Ends.unique {name : String} {store : Store} {policy : MissingPolicy}
    {block : Bool} {result other : Outcome String × Store}
    (h : policy.Ends name store block result) (h' : policy.Ends name store block other) :
    other = result := by
  cases h with
  | plainRefused hpolicy =>
      cases h' with
      | plainRefused => rfl
      | plainEmpty => exact absurd rfl hpolicy
  | plainEmpty =>
      cases h' with
      | plainRefused hpolicy => exact absurd rfl hpolicy
      | plainEmpty => rfl
  | blockRefused =>
      cases h' with
      | blockRefused => rfl
      | blockEmpty hpolicy => exact absurd rfl hpolicy
  | blockEmpty hpolicy =>
      cases h' with
      | blockRefused => exact absurd rfl hpolicy
      | blockEmpty => rfl

namespace Frame

variable {frame : Frame} {store : Store} {name : String} {helper : Helper} {context : Value}
  {respondent : Respondent}

theorem knows_iff : frame.Knows store name helper ↔ store.helper? frame name = some helper := by
  unfold Store.helper?
  constructor
  · rintro (⟨given, found⟩ | ⟨lacking, found⟩)
    · simp [given, found]
    · cases hgiven : frame.options.helpers with
      | none => simp [found]
      | some registry => simp [lacking registry hgiven, found]
  · intro h
    rcases Option.or_eq_some_iff.mp h with hoverride | ⟨hnone, henvironment⟩
    · obtain ⟨registry, given, found⟩ := Option.bind_eq_some_iff.mp hoverride
      exact .override given found
    · exact .environment (Option.bind_eq_none_iff.mp hnone) henvironment

theorem not_knows_iff :
    (∀ other, ¬ frame.Knows store name other) ↔ store.helper? frame name = none := by
  simp only [knows_iff, Option.eq_none_iff_forall_ne_some, ne_eq]

/-- Somebody answers every call. -/
theorem exists_answeredBy (frame : Frame) (store : Store) (name : String) (context : Value) :
    ∃ respondent, frame.AnsweredBy store name context respondent := by
  cases hnamed : store.helper? frame name with
  | some helper => exact ⟨_, .named (knows_iff.mpr hnamed)⟩
  | none =>
      have hunknown := not_knows_iff.mpr hnamed
      cases hstandIn : store.helper? frame Builtin.helperMissing.name with
      | some helper => exact ⟨_, .standIn hunknown (knows_iff.mpr hstandIn)⟩
      | none => exact ⟨_, .nobody hunknown (not_knows_iff.mpr hstandIn)⟩

theorem Knows.unique {other : Helper} (h : frame.Knows store name helper)
    (h' : frame.Knows store name other) : other = helper :=
  Option.some.inj ((knows_iff.mp h').symm.trans (knows_iff.mp h))

theorem AnsweredBy.unique {other : Respondent} (h : frame.AnsweredBy store name context respondent)
    (h' : frame.AnsweredBy store name context other) : other = respondent := by
  cases h with
  | named known =>
      cases h' with
      | named known' => rw [known.unique known']
      | standIn unknown => exact absurd known (unknown _)
      | nobody unknown => exact absurd known (unknown _)
  | standIn unknown known =>
      cases h' with
      | named known' => exact absurd known' (unknown _)
      | standIn _ known' => rw [known.unique known']
      | nobody _ without => exact absurd known (without _)
  | nobody unknown without =>
      cases h' with
      | named known' => exact absurd known' (unknown _)
      | standIn _ known' => exact absurd known' (without _)
      | nobody => rfl

/-- A call is answered by what the rules say. -/
theorem AnsweredBy.callHelper_eq (h : frame.AnsweredBy store name context respondent)
    (worker : Worker) (scope : Value) (options : HelperOptions) :
    frame.callHelper worker name scope context options store =
      respondent.render frame worker name scope options store := by
  unfold callHelper
  cases h with
  | named known =>
      simp only [Render.bind_run, helper?, Render.look, knows_iff.mp known]
      rfl
  | standIn unknown known =>
      simp only [Render.bind_run, helper?, Render.look, not_knows_iff.mp unknown,
        knows_iff.mp known]
      rfl
  | nobody unknown without =>
      simp only [Render.bind_run, helper?, Render.look, not_knows_iff.mp unknown,
        not_knows_iff.mp without]
      rfl

theorem ends_resolveMissing (frame : Frame) (name : String) (options : HelperOptions)
    (store : Store) :
    frame.settings.missing.Ends name store options.isBlock
      (frame.resolveMissing name options store) := by
  unfold resolveMissing resolveMissingBlock resolveMissingValue
  cases options.isBlock with
  | true =>
      cases frame.settings.missing with
      | asymmetric => exact .blockEmpty nofun
      | fail => exact .blockRefused
      | empty => exact .blockEmpty nofun
  | false =>
      cases frame.settings.missing with
      | asymmetric => exact .plainRefused nofun
      | fail => exact .plainRefused nofun
      | empty => exact .plainEmpty

/-- The built-in helper for unknown names takes its context for the name, and does
what is done without any. -/
theorem AnsweredBy.render_missing (h : frame.AnsweredBy store name context respondent)
    (hunknown : ∀ other, ¬ frame.Knows store name other)
    (hbuiltin : ∀ other, frame.Knows store Builtin.helperMissing.name other →
      other.action = .builtin .helperMissing)
    (worker : Worker) (scope : Value) (options : HelperOptions) :
    respondent.render frame worker name scope options = frame.resolveMissing name options := by
  cases h with
  | named known => exact absurd known (hunknown _)
  | standIn _ known =>
      simp only [Respondent.render, hbuiltin _ known]
      rfl
  | nobody => rfl

/-- So a call of an unknown name ends with or without that helper in the same
way. -/
theorem callHelper_unknown (hunknown : ∀ other, ¬ frame.Knows store name other)
    (hbuiltin : ∀ other, frame.Knows store Builtin.helperMissing.name other →
      other.action = .builtin .helperMissing)
    (worker : Worker) (scope context : Value) (options : HelperOptions) :
    frame.callHelper worker name scope context options store =
      frame.resolveMissing name options store := by
  obtain ⟨respondent, hanswers⟩ := frame.exists_answeredBy store name context
  rw [hanswers.callHelper_eq, hanswers.render_missing hunknown hbuiltin]

/-- Where the environment holds a helper for unknown names, a helper answers. -/
theorem AnsweredBy.ne_policy (h : frame.AnsweredBy store name context respondent)
    (hheld :
      (store.helpersOf frame.environment.helpers).contains Builtin.helperMissing.name = true) :
    respondent ≠ .policy := by
  rintro rfl
  cases h with
  | nobody _ without =>
      have habsent := not_knows_iff.mp without
      rw [Store.helper?, Option.or_eq_none_iff] at habsent
      simp [Registry.contains, habsent.2] at hheld

/-- Every call is answered once, as the rules say, and its end is that of what
answers it. In a frame of an environment that holds a helper for unknown names, as
all begin with one, that is always a helper; what the environment itself holds under
the name goes before a helper for unknown names that the caller supplies. If the
name is unknown and no other helper stands in than the built-in one, the call ends
as the settings say for the name, for a call with a block or one without; whatever
the block, the alternative, the scope and the context are, and whatever would render
them. -/
theorem calls_one_helper (frame : Frame) (worker : Worker) (name : String)
    (scope context : Value) (options : HelperOptions) (store : Store) :
    let call := frame.callHelper worker name scope context options store
    (∃ respondent, frame.AnsweredBy store name context respondent ∧
      (∀ other, frame.AnsweredBy store name context other → other = respondent) ∧
      call = respondent.render frame worker name scope options store ∧
      ((store.helpersOf frame.environment.helpers).contains Builtin.helperMissing.name = true →
        respondent ≠ .policy)) ∧
    (∀ own, (store.helpersOf frame.environment.helpers).get? name = some own →
      (∀ registry, frame.options.helpers = some registry →
        (store.helpersOf registry).get? name = none) →
      call = own.action.call worker frame scope context options store) ∧
    ((∀ other, ¬ frame.Knows store name other) →
      (∀ other, frame.Knows store Builtin.helperMissing.name other →
        other.action = .builtin .helperMissing) →
      call = frame.resolveMissing name options store ∧
      (∀ result, call = result ↔
        frame.settings.missing.Ends name store options.isBlock result) ∧
      ∀ worker' scope' context' options', options'.isBlock = options.isBlock →
        frame.callHelper worker' name scope' context' options' store = call) := by
  intro call
  refine ⟨?_, fun own found lacking => ?_, fun hunknown hbuiltin => ?_⟩
  · obtain ⟨respondent, hanswers⟩ := frame.exists_answeredBy store name context
    exact ⟨respondent, hanswers, fun _ => hanswers.unique,
      hanswers.callHelper_eq worker scope options, hanswers.ne_policy⟩
  · have hanswers : frame.AnsweredBy store name context (.helper own context) :=
      .named (.environment lacking found)
    exact hanswers.callHelper_eq worker scope options
  · have hmissing := callHelper_unknown hunknown hbuiltin
    have hcall : frame.settings.missing.Ends name store options.isBlock call := by
      show frame.settings.missing.Ends name store options.isBlock
        (frame.callHelper worker name scope context options store)
      rw [hmissing]
      exact frame.ends_resolveMissing name options store
    refine ⟨hmissing worker scope context options,
      fun result => ⟨?_, fun hend => hend.unique hcall⟩, ?_⟩
    · rintro rfl
      exact hcall
    · intro worker' scope' context' options' hblock
      have hother := frame.ends_resolveMissing name options' store
      rw [hblock, ← hmissing worker' scope' context' options'] at hother
      exact hcall.unique hother

end Frame

namespace StandIns

def environment : Environment := ⟨0, 0, {}, none, .standard⟩

def template : Template := (Store.empty.newTemplate environment (.nodes [])).1

/-- The environment has a helper of its own, and the second registry holds one
for unknown names. -/
def store : Store :=
  (((Store.empty.newEnvironment {} none .standard).2.newHelpers .empty).2.registerHelper 0 "own"
    ⟨.nodes [.text "own"], none⟩).registerHelper 1 Builtin.helperMissing.name
    ⟨.nodes [.text "no ", .escaped (.this none)], none⟩

def supplied : Frame := ⟨template, ⟨some 1, none, none, 0⟩⟩

def plain : Frame := ⟨template, {}⟩

def block : HelperOptions := ⟨some ⟨1, [.text "block"], none, []⟩, template.noop, none⟩

theorem supplied_other : store.helper? supplied "other" = none := rfl

theorem supplied_missing : store.helper? supplied Builtin.helperMissing.name =
    some ⟨.nodes [.text "no ", .escaped (.this none)], none⟩ := rfl

theorem plain_other : store.helper? plain "other" = none := rfl

theorem plain_missing : store.helper? plain Builtin.helperMissing.name =
    some ⟨.builtin .helperMissing, none⟩ := rfl

theorem own : (store.helpersOf 0).get? "own" = some ⟨.nodes [.text "own"], none⟩ := rfl

theorem supplied_lacks_own : ∀ registry, supplied.options.helpers = some registry →
    (store.helpersOf registry).get? "own" = none := by
  intro registry hregistry
  obtain rfl := Option.some.inj hregistry
  rfl

end StandIns

/-- The caller supplies a helper for unknown names: it is given the other name, but
not the one that the environment knows. Where nothing is supplied, a block of the
other name renders nothing. -/
theorem Frame.calls_one_helper_supplied :
    (StandIns.supplied.callHelper (Task.run {} 2) "own" .null .null StandIns.block
        StandIns.store).1 = .done "own" ∧
    (StandIns.supplied.callHelper (Task.run {} 2) "other" .null .null StandIns.block
        StandIns.store).1 = .done "no other" ∧
    StandIns.plain.callHelper (Task.run {} 2) "other" .null .null StandIns.block StandIns.store =
      (.done "", StandIns.store.note (.missingBlock "other")) := by
  obtain ⟨_, howned, _⟩ := StandIns.supplied.calls_one_helper (Task.run {} 2) "own" .null .null
    StandIns.block StandIns.store
  obtain ⟨⟨respondent, _, hunique, hcall, _⟩, _⟩ := StandIns.supplied.calls_one_helper
    (Task.run {} 2) "other" .null .null StandIns.block StandIns.store
  obtain ⟨_, _, hpolicy⟩ := StandIns.plain.calls_one_helper (Task.run {} 2) "other" .null .null
    StandIns.block StandIns.store
  refine ⟨?_, ?_, ?_⟩
  · rw [howned _ StandIns.own StandIns.supplied_lacks_own]
    decide +kernel
  · have hstandIn : StandIns.supplied.AnsweredBy StandIns.store "other" .null
        (.helper ⟨.nodes [.text "no ", .escaped (.this none)], none⟩ (.string "other")) :=
      .standIn (Frame.not_knows_iff.mpr StandIns.supplied_other)
        (Frame.knows_iff.mpr StandIns.supplied_missing)
    rw [hcall, ← hunique _ hstandIn]
    decide +kernel
  · have hbuiltin : ∀ other, StandIns.plain.Knows StandIns.store Builtin.helperMissing.name other →
        other.action = .builtin .helperMissing := by
      intro other hother
      have hfound := Frame.knows_iff.mp hother
      obtain rfl := Option.some.inj (StandIns.plain_missing.symm.trans hfound)
      rfl
    obtain ⟨_, hends, _⟩ := hpolicy (Frame.not_knows_iff.mpr StandIns.plain_other) hbuiltin
    exact (hends _).mpr (.blockEmpty nofun)

end Stencil
