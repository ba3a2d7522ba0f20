import Stencil.Proofs.Likeness.Hosts
import Stencil.Proofs.Requesting

/-!
Programs of two sides that stand for each other. A template of one side may
serve where many come and go on the other, so the programs that are kept do not
correspond. But the programs of two open frames do, one to one, and they are
kept under the same numbers or not at all.
-/

namespace Stencil

namespace Store

variable {s t u : Store} {identity index program : Nat}

/-- The identity of the program that is kept under a number. -/
def keptIdentity? (store : Store) (identity index : Nat) : Option Nat :=
  (store.kept? identity index).map (·.identity)

/-- No program is lost, and programs that come up later have new identities. -/
structure Retains (s t : Store) : Prop where
  fresh : s.freshProgram ≤ t.freshProgram
  kept : ∀ identity index program, program < s.freshProgram →
    (t.keptIdentity? identity index = some program ↔
      s.keptIdentity? identity index = some program)

/-- Stores that keep the same programs. -/
theorem Retains.of_kept (hkept : ∀ identity index, t.kept? identity index = s.kept? identity index)
    (hfresh : s.freshProgram ≤ t.freshProgram) : s.Retains t where
  fresh := hfresh
  kept := by
    intro identity index program _
    unfold keptIdentity?
    rw [hkept]

/-- A program was provided for a number of a template, from what the template
keeps or not; it was kept under that number before, or it is new. -/
structure Makes (s t : Store) (identity index : Nat) (keeps : Prop) (program : Nat) : Prop
    extends s.Retains t where
  below : program < t.freshProgram
  now : ∀ i, t.keptIdentity? identity i = some program ↔ keeps ∧ i = index
  before : (s.freshProgram ≤ program ∧ (keeps → s.keptIdentity? identity index = none)) ∨
    (keeps ∧ s.keptIdentity? identity index = some program)

end Store

namespace KeptPartials

variable {con : Conventions True} {environment : Environment} {s t : Store}

/-- A template that keeps to the conventions, for one environment. -/
structure Proper (con : Conventions True) (environment : Environment) (template : Template) :
    Prop where
  bound : template.environment = environment
  allowed : con.specs template.spec
  offers : con.Offers environment
  noop : template.noop = ⟨template.noop.identity, [], none, []⟩

/-- What one side keeps: only programs of blocks without data, each in one
slot, none of them the empty program of its template. -/
structure Side (con : Conventions True) (environment : Environment)
    (known : Nat → Option Template) (store : Store) : Prop where
  made : ∀ identity template, known identity = some template →
    template.identity = identity ∧ Proper con environment template ∧
      identity < store.freshTemplate ∧ template.noop.identity < store.freshProgram
  kept : ∀ identity index program, store.kept? identity index = some program →
    ∃ template, known identity = some template ∧
      program = ⟨program.identity, con.blocks template.spec index, none, []⟩ ∧
      program.identity < store.freshProgram ∧ program.identity ≠ template.noop.identity
  distinct : ∀ identity index other program,
    store.keptIdentity? identity index = some program →
    store.keptIdentity? identity other = some program → index = other

/-- What is known with one more template. -/
def know (known : Nat → Option Template) (template : Template) (identity : Nat) :
    Option Template :=
  if identity = template.identity then some template else known identity

namespace Side

variable {known : Nat → Option Template} {after : Store} {template : Template}

theorem congr (h : Side con environment known s)
    (hkept : ∀ identity index, after.kept? identity index = s.kept? identity index)
    (htemplate : after.freshTemplate = s.freshTemplate)
    (hprogram : after.freshProgram = s.freshProgram) :
    Side con environment known after where
  made := by
    rw [htemplate, hprogram]
    exact h.made
  kept := by
    simp only [hkept, hprogram]
    exact h.kept
  distinct := by
    simp only [Store.keptIdentity?, hkept]
    exact h.distinct

/-- The empty program of a template is in none of its slots. -/
theorem keptIdentity?_ne_noop (h : Side con environment known s)
    (hknown : known template.identity = some template) (index : Nat) :
    s.keptIdentity? template.identity index ≠ some template.noop.identity := by
  intro hsame
  obtain ⟨program, hkept, hidentity⟩ := Option.map_eq_some_iff.mp hsame
  obtain ⟨other, hother, _, _, hnoop⟩ := h.kept _ index program hkept
  obtain rfl := Option.some.inj (hother.symm.trans hknown)
  exact hnoop hidentity

theorem know_grows (h : Side con environment known s)
    (hnew : template.identity = s.freshTemplate) (identity : Nat) (other : Template)
    (hknown : known identity = some other) : know known template identity = some other := by
  obtain ⟨_, _, hbelow, _⟩ := h.made identity other hknown
  unfold know
  rw [if_neg (by omega)]
  exact hknown

theorem newTemplate (h : Side con environment known s) {spec : Spec} (hspec : con.specs spec)
    (hoffers : con.Offers environment) :
    Side con environment (know known (s.newTemplate environment spec).1)
      (s.newTemplate environment spec).2 where
  made := by
    intro identity template hknown
    unfold know at hknown
    split at hknown
    case isTrue hnew =>
      obtain rfl := Option.some.inj hknown
      refine ⟨hnew.symm, ⟨rfl, hspec, hoffers, rfl⟩, ?_, Nat.lt_succ_self _⟩
      rw [hnew]
      exact Nat.lt_succ_self _
    case isFalse =>
      obtain ⟨hidentity, hproper, htemplate, hnoop⟩ := h.made identity template hknown
      exact ⟨hidentity, hproper, Nat.lt_succ_of_lt htemplate, Nat.lt_succ_of_lt hnoop⟩
  kept := by
    intro identity index program hkept
    obtain ⟨template, hknown, hprogram, hbelow, hnoop⟩ := h.kept identity index program hkept
    exact ⟨template, h.know_grows rfl identity template hknown, hprogram,
      Nat.lt_succ_of_lt hbelow, hnoop⟩
  distinct := h.distinct

theorem keptIdentity?_below (h : Side con environment known s) {identity index program : Nat}
    (hkept : s.keptIdentity? identity index = some program) : program < s.freshProgram := by
  obtain ⟨kept, hfound, rfl⟩ := Option.map_eq_some_iff.mp hkept
  obtain ⟨_, _, _, hbelow, _⟩ := h.kept identity index kept hfound
  exact hbelow

/-- A program that no slot keeps. -/
theorem unkept (h : Side con environment known s) (after : Store) {keeps : Prop} (hkeeps : ¬ keeps)
    (hkept : ∀ identity index, after.kept? identity index = s.kept? identity index)
    (htemplate : after.freshTemplate = s.freshTemplate)
    (hprogram : after.freshProgram = s.freshProgram + 1) (identity index : Nat) :
    Side con environment known after ∧ s.Makes after identity index keeps s.freshProgram := by
  have hsame : ∀ identity i, after.keptIdentity? identity i = s.keptIdentity? identity i := by
    intro identity i
    rw [Store.keptIdentity?, hkept, Store.keptIdentity?]
  have hretains : s.Retains after := .of_kept hkept (by omega)
  refine ⟨⟨?_, ?_, ?_⟩, { hretains with below := ?_, now := ?_, before := ?_ }⟩
  · intro identity template hknown
    obtain ⟨hidentity, hproper, hbelow, hnoop⟩ := h.made identity template hknown
    exact ⟨hidentity, hproper, htemplate ▸ hbelow, by omega⟩
  · intro identity index program hfound
    obtain ⟨template, hknown, hprogram', hbelow, hnoop⟩ := h.kept identity index program
      (hkept identity index ▸ hfound)
    exact ⟨template, hknown, hprogram', by omega, hnoop⟩
  · simp only [hsame]
    exact h.distinct
  · omega
  · intro i
    rw [hsame]
    constructor
    · intro hfound
      have := h.keptIdentity?_below hfound
      omega
    · intro hnow
      exact (hkeeps hnow.1).elim
  · exact .inl ⟨Nat.le_refl _, fun hnow => (hkeeps hnow).elim⟩

theorem filled (h : Side con environment known s) {keeps : Prop} (hkeeps : keeps)
    (hkept : ∀ identity index, after.kept? identity index = s.kept? identity index)
    (htemplate : after.freshTemplate = s.freshTemplate)
    (hprogram : after.freshProgram = s.freshProgram) {identity index : Nat} {program : Program}
    (hfound : s.kept? identity index = some program) :
    Side con environment known after ∧
      s.Makes after identity index keeps program.identity := by
  have hretains : s.Retains after := .of_kept hkept (by omega)
  have hidentity : s.keptIdentity? identity index = some program.identity := by
    rw [Store.keptIdentity?, hfound, Option.map_some]
  refine ⟨h.congr hkept htemplate hprogram,
    { hretains with below := ?_, now := ?_, before := .inr ⟨hkeeps, hidentity⟩ }⟩
  · have := h.keptIdentity?_below hidentity
    omega
  · intro i
    have hsame : after.keptIdentity? identity i = s.keptIdentity? identity i := by
      rw [Store.keptIdentity?, hkept, Store.keptIdentity?]
    rw [hsame]
    constructor
    · intro hi
      exact ⟨hkeeps, h.distinct identity i index _ hi hidentity⟩
    · rintro ⟨_, rfl⟩
      exact hidentity

section Filling

variable {index : Nat}
  (hkept : ∀ identity i, after.kept? identity i =
    if identity = template.identity ∧ i = index then
      some ⟨s.freshProgram, con.blocks template.spec index, none, []⟩
    else s.kept? identity i)

include hkept in
theorem keptIdentity?_filled (identity i : Nat) : after.keptIdentity? identity i =
    if identity = template.identity ∧ i = index then some s.freshProgram
    else s.keptIdentity? identity i := by
  simp only [Store.keptIdentity?, hkept]
  split
  · rfl
  · rfl

include hkept in
theorem fills (h : Side con environment known s)
    (hknown : known template.identity = some template)
    (htemplate : after.freshTemplate = s.freshTemplate)
    (hprogram : after.freshProgram = s.freshProgram + 1) : Side con environment known after where
  made := by
    intro identity other hother
    obtain ⟨hsame, hproper, hbelow, hnoop⟩ := h.made identity other hother
    exact ⟨hsame, hproper, htemplate ▸ hbelow, by omega⟩
  kept := by
    intro identity i program hfound
    rw [hkept] at hfound
    split at hfound
    case isTrue hslot =>
      obtain ⟨hsame, hindex⟩ := hslot
      obtain rfl := Option.some.inj hfound
      obtain ⟨_, _, _, hnoop⟩ := h.made _ template hknown
      rw [hsame, hindex, hprogram]
      exact ⟨template, hknown, rfl, Nat.lt_succ_self _, (Nat.ne_of_lt hnoop).symm⟩
    case isFalse =>
      obtain ⟨other, hother, hprogram', hbelow, hnoop⟩ := h.kept identity i program hfound
      exact ⟨other, hother, hprogram', by omega, hnoop⟩
  distinct := by
    intro identity i j program hi hj
    rw [keptIdentity?_filled hkept] at hi hj
    split at hi
    case isTrue hslot =>
      obtain rfl := Option.some.inj hi
      split at hj
      case isTrue hslot' => exact hslot.2.trans hslot'.2.symm
      case isFalse =>
        have := h.keptIdentity?_below hj
        omega
    case isFalse =>
      split at hj
      case isTrue =>
        obtain rfl := Option.some.inj hj
        have := h.keptIdentity?_below hi
        omega
      case isFalse => exact h.distinct identity i j program hi hj

include hkept in
theorem fills_makes (h : Side con environment known s) {keeps : Prop} (hkeeps : keeps)
    (hempty : s.kept? template.identity index = none)
    (hprogram : after.freshProgram = s.freshProgram + 1) :
    s.Makes after template.identity index keeps s.freshProgram := by
  have hnone : s.keptIdentity? template.identity index = none := by
    rw [Store.keptIdentity?, hempty, Option.map_none]
  refine ⟨⟨?_, ?_⟩, ?_, ?_, .inl ⟨Nat.le_refl _, fun _ => hnone⟩⟩
  · omega
  · intro identity i program hbelow
    rw [keptIdentity?_filled hkept]
    split
    case isTrue hslot =>
      obtain ⟨rfl, rfl⟩ := hslot
      rw [hnone, Option.some.injEq]
      constructor
      · omega
      · intro hsame
        cases hsame
    case isFalse => exact Iff.rfl
  · omega
  · intro i
    rw [keptIdentity?_filled hkept]
    split
    case isTrue hslot => exact ⟨fun _ => ⟨hkeeps, hslot.2⟩, fun _ => rfl⟩
    case isFalse hslot =>
      constructor
      · intro hsame
        have := h.keptIdentity?_below hsame
        omega
      · intro hnow
        exact (hslot ⟨rfl, hnow.2⟩).elim

end Filling

/-- What one side does when a program is requested, with what the program is
made of. -/
theorem requests (h : Side con environment known s)
    (hknown : known template.identity = some template) {index : Nat} {data : Option Value}
    {program : Program}
    (hrequested : template.Requests index (con.blocks template.spec index) data s program after) :
    program = ⟨program.identity, con.blocks template.spec index, data.filter Value.isTruthy, []⟩ ∧
      Side con environment known after ∧
      s.Makes after template.identity index (data.filter Value.isTruthy = none)
        program.identity := by
  cases hrequested with
  | @own d _ given provided kept fresh =>
      obtain ⟨_, _, _, rfl⟩ := provided
      refine ⟨given ▸ rfl, h.unkept _ ?_ kept rfl fresh _ _⟩
      rw [given]
      exact Option.some_ne_none d
  | filled without found provided kept fresh =>
      obtain ⟨_, _, _, rfl⟩ := provided
      obtain ⟨other, hother, hprogram, _, _⟩ := h.kept _ _ _ found
      obtain rfl := Option.some.inj (hother.symm.trans hknown)
      exact ⟨without ▸ hprogram, h.filled without kept rfl fresh found⟩
  | fills without found provided kept fresh =>
      obtain ⟨_, _, _, rfl⟩ := provided
      exact ⟨without ▸ rfl, fills kept h hknown rfl fresh,
        fills_makes kept h without found fresh⟩

end Side

/-- Two open frames that stand for each other, and the programs in them that
do. -/
structure Layer where
  left : Template
  right : Template
  pairs : Nat → Nat → Prop

/-- The programs of two open frames: those that stand for each other are known
already, correspond one to one, and are kept under the same numbers. -/
structure Layer.Holds (layer : Layer) (s t : Store) : Prop where
  below : ∀ i j, layer.pairs i j → i < s.freshProgram ∧ j < t.freshProgram
  paired : ∀ i j i' j', layer.pairs i j → layer.pairs i' j' → (i = i' ↔ j = j')
  kept : ∀ i j, layer.pairs i j → ∀ index,
    (s.keptIdentity? layer.left.identity index = some i ↔
      t.keptIdentity? layer.right.identity index = some j)

/-- What is known of open frames stays true while others render. -/
theorem Layer.Holds.retain {layer : Layer} {s' t' : Store} (h : layer.Holds s t)
    (hleft : s.Retains s') (hright : t.Retains t') : layer.Holds s' t' where
  below := by
    intro i j hij
    have hbelow := h.below i j hij
    have := hleft.fresh
    have := hright.fresh
    omega
  paired := h.paired
  kept := by
    intro i j hij index
    obtain ⟨hi, hj⟩ := h.below i j hij
    rw [hleft.kept _ index i hi, hright.kept _ index j hj]
    exact h.kept i j hij index

/-- The layer in which two more programs stand for each other. -/
def Layer.pair (layer : Layer) (i j : Nat) : Layer :=
  { layer with pairs := fun i' j' => layer.pairs i' j' ∨ (i' = i ∧ j' = j) }

/-- Programs that were provided on both sides for the same number have no other
partners: a new one has none at all, and one that was kept has the one that is
kept under that number. -/
theorem Layer.Holds.partner_iff {layer : Layer} {s' t' : Store} {i j i' j' index : Nat}
    {keeps : Prop} (h : layer.Holds s t)
    (hleft : s.Makes s' layer.left.identity index keeps i)
    (hright : t.Makes t' layer.right.identity index keeps j) (hpair : layer.pairs i' j') :
    i' = i ↔ j' = j := by
  obtain ⟨hi, hj⟩ := h.below i' j' hpair
  have hkept := h.kept i' j' hpair index
  rcases hleft.before with ⟨hfresh, hempty⟩ | ⟨hkeeps, hfound⟩
  · rcases hright.before with ⟨hfresh', _⟩ | ⟨hkeeps, hfound'⟩
    · omega
    · -- The right one was kept and the left one was not, so the kept one had no partner.
      rw [hempty hkeeps, hfound'] at hkept
      constructor
      · omega
      · rintro rfl
        cases hkept.mpr rfl
  · rcases hright.before with ⟨hfresh', hempty'⟩ | ⟨_, hfound'⟩
    · rw [hfound, hempty' hkeeps] at hkept
      constructor
      · rintro rfl
        cases hkept.mp rfl
      · omega
    · rw [hfound, hfound', Option.some.injEq, Option.some.injEq] at hkept
      constructor
      · intro hsame
        exact (hkept.mp hsame.symm).symm
      · intro hsame
        exact (hkept.mpr hsame.symm).symm

/-- Such programs stand for each other from then on. -/
theorem Layer.Holds.pair {layer : Layer} {s' t' : Store} {i j index : Nat} {keeps : Prop}
    (h : layer.Holds s t) (hleft : s.Makes s' layer.left.identity index keeps i)
    (hright : t.Makes t' layer.right.identity index keeps j) : (layer.pair i j).Holds s' t' := by
  have hold := h.retain hleft.toRetains hright.toRetains
  have hnew : ∀ i' j', layer.pairs i' j' → (i' = i ↔ j' = j) :=
    fun _ _ hpair => h.partner_iff hleft hright hpair
  constructor
  · rintro i' j' (hpair | ⟨rfl, rfl⟩)
    · exact hold.below i' j' hpair
    · exact ⟨hleft.below, hright.below⟩
  · rintro i' j' i'' j'' (hpair | ⟨rfl, rfl⟩) (hpair' | ⟨rfl, rfl⟩)
    · exact h.paired i' j' i'' j'' hpair hpair'
    · exact hnew i' j' hpair
    · have hsame := hnew i'' j'' hpair'
      constructor
      · intro hi
        exact (hsame.mp hi.symm).symm
      · intro hj
        exact (hsame.mpr hj.symm).symm
    · exact iff_of_true rfl rfl
  · rintro i' j' (hpair | ⟨rfl, rfl⟩) other
    · exact hold.kept i' j' hpair other
    · exact (hleft.now other).trans (hright.now other).symm

/-- While a frame is open more becomes known of its own programs only. -/
inductive LayersGrow : List Layer → List Layer → Prop
  | nil : LayersGrow [] []
  | cons {layer layer' : Layer} {rest : List Layer} (left : layer'.left = layer.left)
      (right : layer'.right = layer.right)
      (pairs : ∀ i j, layer.pairs i j → layer'.pairs i j) :
      LayersGrow (layer :: rest) (layer' :: rest)

theorem LayersGrow.refl (layers : List Layer) : LayersGrow layers layers := by
  cases layers with
  | nil => exact .nil
  | cons layer rest => exact .cons rfl rfl fun _ _ h => h

theorem LayersGrow.trans {first second third : List Layer} (h : LayersGrow first second)
    (h' : LayersGrow second third) : LayersGrow first third := by
  cases h with
  | nil => exact h'
  | cons left right pairs =>
      cases h' with
      | cons left' right' pairs' =>
          exact .cons (left'.trans left) (right'.trans right) fun i j hij =>
            pairs' i j (pairs i j hij)

end KeptPartials

end Stencil
