import Mathlib.Logic.Function.Iterate
import Stencil.Render.Basic

/-!
Resolving. Each evaluation of a deferred value gives the next one of a chain, and
resolving follows the chain to its end, if that comes within the bound. A chain
ends in a value that is not deferred, or it never ends; every value is the start
of a chain of one of these kinds. Main statement: what each kind resolves to, at
what cost, and what is noted.
-/

namespace Stencil.Value

/-- What one evaluation makes of a value. Only deferred values change. -/
def evaluate : Value → Value
  | .lazy _ result => result
  | v => v

theorem evaluate_of_not_isLazy {v : Value} (h : ¬ v.isLazy) : v.evaluate = v := by
  cases v <;> simp_all [evaluate, isLazy]

theorem iterate_evaluate_of_not_isLazy {v : Value} (h : ¬ v.isLazy) (n : Nat) :
    evaluate^[n] v = v :=
  Function.iterate_fixed (evaluate_of_not_isLazy h) n

theorem iterate_evaluate_endless (identity n : Nat) :
    evaluate^[n] (.endless identity) = .endless identity :=
  Function.iterate_fixed rfl n

theorem resolveWithin_of_not_isLazy {v : Value} (h : ¬ v.isLazy) (budget : Nat) :
    v.resolveWithin budget = ⟨v, 0, true⟩ := by
  cases v <;> simp_all [resolveWithin, isLazy]

/-- Resolving evaluates as often as it may; a chain that is still deferred after
that counts as null. -/
theorem resolveWithin_value (budget : Nat) (v : Value) :
    (v.resolveWithin budget).value =
      if (evaluate^[budget] v).isLazy then .null else evaluate^[budget] v := by
  induction budget generalizing v with
  | zero => cases v <;> rfl
  | succ budget ih =>
      by_cases hlazy : v.isLazy
      · cases v with
        | lazy identity result => exact ih result
        | endless identity => simp [resolveWithin, iterate_evaluate_endless, isLazy]
        | _ => simp [isLazy] at hlazy
      · simp [resolveWithin_of_not_isLazy hlazy, iterate_evaluate_of_not_isLazy hlazy, hlazy]

theorem resolveWithin_not_isLazy (budget : Nat) (v : Value) :
    ¬ (v.resolveWithin budget).value.isLazy := by
  rw [resolveWithin_value]
  split
  · simp [isLazy]
  · assumption

theorem resolve_of_not_isLazy {v : Value} (h : ¬ v.isLazy) : v.resolve.value = v := by
  rw [resolve, resolveWithin_of_not_isLazy h]

/-- Resolving makes one evaluation of each deferred value that comes up, as long
as evaluations are left. -/
theorem resolveWithin_calls (budget : Nat) (v : Value) :
    (v.resolveWithin budget).calls =
      (List.range budget).countP fun i => (evaluate^[i] v).isLazy := by
  induction budget generalizing v with
  | zero => cases v <;> rfl
  | succ budget ih =>
      rw [List.range_succ_eq_map, List.countP_cons, List.countP_map]
      simp only [Function.comp_def, Function.iterate_succ_apply, Function.iterate_zero_apply]
      by_cases hlazy : v.isLazy
      · cases v with
        | lazy identity result => simp [resolveWithin, ih, evaluate, isLazy]
        | endless identity =>
            have hstays : ∀ i, (evaluate^[i] (endless identity)).isLazy = true := by
              intro i
              rw [iterate_evaluate_endless]
              rfl
            simp [resolveWithin, evaluate, hstays, hlazy]
        | _ => simp [isLazy] at hlazy
      · have hstays : ∀ i, (evaluate^[i] v).isLazy = false := by
          intro i
          rw [iterate_evaluate_of_not_isLazy hlazy]
          simpa using hlazy
        simp [resolveWithin_of_not_isLazy hlazy, evaluate_of_not_isLazy hlazy, hstays, hlazy]

/-- A value at the end of a chain of deferred values, the outermost one first. -/
def behind (identities : List Nat) (v : Value) : Value :=
  identities.foldr lazy v

/-- Every value starts a chain: to one that is not deferred, or without end. -/
theorem exists_behind :
    ∀ v : Value, ∃ identities last,
      v = behind identities last ∧ (¬ last.isLazy ∨ ∃ identity, last = .endless identity)
  | .lazy identity result => by
      obtain ⟨identities, last, rfl, hlast⟩ := exists_behind result
      exact ⟨identity :: identities, last, rfl, hlast⟩
  | .endless identity => ⟨[], .endless identity, rfl, .inr ⟨identity, rfl⟩⟩
  | .null | .bool _ | .number _ | .string _ | .safe _ | .array _ | .object _ =>
      ⟨[], _, rfl, .inl (by simp [isLazy])⟩
termination_by structural v => v

/-- Resolving makes one evaluation for each link of a chain, and then resolves
what is at its end with the evaluations that are left. If they do not suffice for
the links, all of them are made in vain. -/
theorem resolveWithin_behind (budget : Nat) (identities : List Nat) (last : Value) :
    (behind identities last).resolveWithin budget =
      if identities.length ≤ budget then
        let resolution := last.resolveWithin (budget - identities.length)
        { resolution with calls := resolution.calls + identities.length }
      else ⟨.null, budget, false⟩ := by
  induction identities generalizing budget with
  | nil => rfl
  | cons identity identities ih =>
      cases budget with
      | zero => rfl
      | succ budget =>
          have hnext : (behind (identity :: identities) last).resolveWithin (budget + 1) =
              { (behind identities last).resolveWithin budget with
                calls := ((behind identities last).resolveWithin budget).calls + 1 } := rfl
          rw [hnext, ih budget, List.length_cons]
          by_cases hshort : identities.length ≤ budget
          · rw [if_pos hshort, if_pos (Nat.succ_le_succ hshort), Nat.succ_sub_succ]
            rfl
          · rw [if_neg hshort, if_neg (mt Nat.le_of_succ_le_succ hshort)]

theorem resolve_behind (identities : List Nat) {last : Value} (h : ¬ last.isLazy) :
    (behind identities last).resolve =
      if identities.length ≤ maxLazyDepth then ⟨last, identities.length, true⟩
      else ⟨.null, maxLazyDepth, false⟩ := by
  rw [resolve, resolveWithin_behind, resolveWithin_of_not_isLazy h]
  simp only [Nat.zero_add]

theorem resolve_endless (identities : List Nat) (identity : Nat) :
    (behind identities (.endless identity)).resolve = ⟨.null, maxLazyDepth, false⟩ := by
  rw [resolve, resolveWithin_behind]
  split
  case isTrue hshort =>
    have hcalls : maxLazyDepth - identities.length + identities.length = maxLazyDepth :=
      Nat.sub_add_cancel hshort
    simp only [resolveWithin, hcalls]
  case isFalse => rfl

theorem calls_resolve_le (v : Value) : v.resolve.calls ≤ maxLazyDepth := by
  rw [resolve, resolveWithin_calls]
  exact Nat.le_trans List.countP_le_length (Nat.le_of_eq List.length_range)

/-- A chain that does not settle is noted, once. -/
theorem resolve_run (v : Value) (store : Store) :
    Render.resolve v store =
      (.done v.resolve.value,
        { store with
          evaluations := store.evaluations + v.resolve.calls
          trace := if v.resolve.settled then store.trace else store.trace.push .unsettled }) := by
  have htrace : store.trace ++ Array.replicate v.resolve.tally.unsettled .unsettled =
      if v.resolve.settled then store.trace else store.trace.push .unsettled := by
    cases hsettled : v.resolve.settled with
    | true => simp [Resolution.tally, hsettled]
    | false => simp [Resolution.tally, hsettled]
  rw [← htrace]
  rfl

/-- Resolving is bounded and exact. What it gives is never deferred, so resolving
that again changes nothing and evaluates nothing, and the evaluations never exceed
their greatest number. A value behind as many deferred ones or fewer is found with
one evaluation for each of them; behind more of them, and at the end of a chain
without end, it counts as null after the greatest number of evaluations. There are
no other values. While rendering, the evaluations are counted, and only a chain
that did not settle leaves a trace, one diagnostic. -/
theorem resolves_within_bound :
    (∀ v : Value, ¬ v.resolve.value.isLazy ∧ v.resolve.calls ≤ maxLazyDepth ∧
      v.resolve.value.resolve = ⟨v.resolve.value, 0, true⟩) ∧
    (∀ (identities : List Nat) (v : Value), ¬ v.isLazy →
      let resolution := (behind identities v).resolve
      resolution.calls = min identities.length maxLazyDepth ∧
      (identities.length ≤ maxLazyDepth → resolution.value = v ∧ resolution.settled = true) ∧
      (maxLazyDepth < identities.length →
        resolution.value = .null ∧ resolution.settled = false)) ∧
    (∀ (identities : List Nat) (identity : Nat),
      (behind identities (.endless identity)).resolve = ⟨.null, maxLazyDepth, false⟩) ∧
    (∀ v : Value, ∃ identities last, v = behind identities last ∧
      (¬ last.isLazy ∨ ∃ identity, last = .endless identity)) ∧
    ∀ (v : Value) (store : Store),
      Render.resolve v store =
        (.done v.resolve.value,
          { store with
            evaluations := store.evaluations + v.resolve.calls
            trace :=
              if v.resolve.settled then store.trace else store.trace.push .unsettled }) := by
  refine ⟨fun v => ?_, fun identities v hlast => ?_, resolve_endless, exists_behind, resolve_run⟩
  · have hsettled := resolveWithin_not_isLazy maxLazyDepth v
    exact ⟨hsettled, calls_resolve_le v, resolveWithin_of_not_isLazy hsettled maxLazyDepth⟩
  · rw [resolve_behind identities hlast]
    by_cases hshort : identities.length ≤ maxLazyDepth
    · rw [if_pos hshort]
      exact ⟨(Nat.min_eq_left hshort).symm, fun _ => ⟨rfl, rfl⟩,
        fun hlong => absurd hshort (Nat.not_le.mpr hlong)⟩
    · rw [if_neg hshort]
      exact ⟨(Nat.min_eq_right (Nat.le_of_not_le hshort)).symm, fun h => absurd h hshort,
        fun _ => ⟨rfl, rfl⟩⟩

/-- The last evaluation that may be made still counts, and one more would be
needed for a chain that is one link longer. -/
theorem resolves_within_bound_barely :
    let within := (behind (List.range 16) (.string "end")).resolve
    let beyond := (behind (List.range 17) (.string "end")).resolve
    (within.calls = 16 ∧ within.value = .string "end" ∧ within.settled = true) ∧
      beyond.calls = 16 ∧ beyond.value = .null ∧ beyond.settled = false := by
  intro within beyond
  obtain ⟨hcalls, hvalue, _⟩ := resolves_within_bound.2.1 (List.range 16) (.string "end") nofun
  obtain ⟨hcalls', _, hvalue'⟩ := resolves_within_bound.2.1 (List.range 17) (.string "end") nofun
  exact ⟨⟨hcalls, hvalue (by decide)⟩, hcalls', hvalue' (by decide)⟩

end Stencil.Value
