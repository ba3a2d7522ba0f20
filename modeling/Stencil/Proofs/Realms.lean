import Stencil.Proofs.Likeness.Hosts
import Stencil.Proofs.Numbering

/-!
Realms. A realm is what the renders of one party may come to: templates, and
registries that partials are looked up in. Two realms are held apart when no
template is in both, and no source in a registry of both is ever accepted.
Leaving out the renders of one party shifts the numbers of the templates and the
programs that the other party makes from then on, and nothing else that the
other party can see: the worlds below say which numbers stand for which.
-/

namespace Stencil

/-- Templates, and the registries in which their partials are looked up. -/
structure Realm where
  templates : Template → Prop
  registries : Nat → Prop
  homes : ∀ template, templates template → registries template.environment.partials

namespace Realm

variable {realm : Realm} {environment : Environment} {frame : Frame}

/-- An environment for which something is rendered in a realm. -/
def Serves (realm : Realm) (environment : Environment) : Prop :=
  ∃ template, realm.templates template ∧ template.environment = environment

theorem Serves.home (h : realm.Serves environment) : realm.registries environment.partials := by
  obtain ⟨template, hreached, rfl⟩ := h
  exact realm.homes template hreached

/-- No registry of a realm leads to a template outside of it. -/
def Closed (realm : Realm) (store : Store) : Prop :=
  ∀ registry name template, realm.registries registry →
    (store.partialsOf registry).get? name = some (.compiled template) → realm.templates template

/-- A source that no compiler of two realms accepts. -/
def Refuse (first second : Realm) (source : String) : Prop :=
  ∀ environment spec, first.Serves environment ∨ second.Serves environment →
    ¬ environment.Compiles source spec

/-- Two realms that share no template and nothing that could be made into one. -/
structure Apart (first second : Realm) (store : Store) : Prop where
  closed : first.Closed store
  closed' : second.Closed store
  templates : ∀ t u, first.templates t → second.templates u → t.identity ≠ u.identity
  sources : ∀ registry name source, first.registries registry → second.registries registry →
    (store.partialsOf registry).get? name = some (.source source) → first.Refuse second source

/-- A render of a template of the realm, given no partials but of the realm. -/
inductive Renders (realm : Realm) (templates : List Template) : Operation → Prop
  | intro {index : Nat} {context : Value} {helpers partials : Option Nat} {data : Option Value}
      {template : Template} (made : templates[index]? = some template)
      (reached : realm.templates template)
      (override : ∀ registry ∈ partials, realm.registries registry) :
      Renders realm templates (.render index context helpers partials data)

/-- A frame that looks up partials in the realm only. -/
structure Runs (realm : Realm) (frame : Frame) : Prop where
  serves : realm.Serves frame.environment
  override : ∀ registry ∈ frame.options.partials, realm.registries registry

theorem Runs.home (h : realm.Runs frame) (store : Store) (name : String) :
    realm.registries (store.partialHome frame name) := by
  unfold Store.partialHome
  cases hoverride : frame.options.partials with
  | none => exact h.serves.home
  | some registry =>
      simp only
      split
      · exact h.override registry hoverride
      · exact h.serves.home

theorem Runs.nested (h : realm.Runs frame) {template : Template}
    (hserves : realm.Serves template.environment) :
    realm.Runs ⟨template, frame.options.nested⟩ :=
  ⟨hserves, h.override⟩

end Realm

/-- Tables of the same size, with entries that stand for each other. -/
structure Table.Alike {α β : Type} (entries : α → β → Prop) (a : Table α) (b : Table β) : Prop where
  size : a.size = b.size
  get : ∀ index, Option.Rel entries (a.get? index) (b.get? index)

namespace Table.Alike

variable {α β : Type} {entries entries' : α → β → Prop} {a : Table α} {b : Table β}

theorem empty : (Table.empty : Table α).Alike entries (Table.empty : Table β) where
  size := rfl
  get _ := .none

theorem weaken (h : a.Alike entries b) (hentries : ∀ x y, entries x y → entries' x y) :
    a.Alike entries' b where
  size := h.size
  get index := (h.get index).weaken hentries

/-- A new number is given entries that stand for each other. -/
theorem set_new (h : a.Alike entries b) {index : Nat} (hleft : a.get? index = none)
    (hright : b.get? index = none) {x : α} {y : β} (hentry : entries x y) :
    (a.set index x).Alike entries (b.set index y) where
  size := by rw [size_set_new hleft, size_set_new hright, h.size]
  get other := by
    by_cases hother : other = index
    · rw [hother, Table.get?_set_self, Table.get?_set_self]
      exact .some hentry
    · rw [Table.get?_set_ne _ _ hother, Table.get?_set_ne _ _ hother]
      exact h.get other

end Table.Alike

namespace Isolation

/-- Numbers of two sides that stand for each other, one to one, all of them
given out. -/
structure Correspond (pairs : Nat → Nat → Prop) (left right : Nat) : Prop where
  below : ∀ i j, pairs i j → i < left ∧ j < right
  unique : ∀ i j i' j', pairs i j → pairs i' j' → (i = i' ↔ j = j')

/-- The pairs with one more. -/
def withPair (pairs : Nat → Nat → Prop) (left right i j : Nat) : Prop :=
  pairs i j ∨ (i = left ∧ j = right)

namespace Correspond

variable {pairs : Nat → Nat → Prop} {left right : Nat}

theorem grow (h : Correspond pairs left right) {left' right' : Nat} (hleft : left ≤ left')
    (hright : right ≤ right') : Correspond pairs left' right' where
  below i j hij := by
    have := h.below i j hij
    omega
  unique := h.unique

/-- Numbers that were given out may stand for themselves. -/
theorem same {holds : Nat → Prop} (hbelow : ∀ i, holds i → i < left) :
    Correspond (fun i j => i = j ∧ holds i) left left where
  below := by
    rintro i _ ⟨rfl, hi⟩
    exact ⟨hbelow i hi, hbelow i hi⟩
  unique := by
    rintro i _ i' _ ⟨rfl, _⟩ ⟨rfl, _⟩
    exact Iff.rfl

/-- The next numbers of the two sides may stand for each other. -/
theorem next (h : Correspond pairs left right) :
    Correspond (withPair pairs left right) (left + 1) (right + 1) where
  below i j hij := by
    rcases hij with hold | hnew
    · have := h.below i j hold
      omega
    · omega
  unique i j i' j' hij hij' := by
    rcases hij with hold | hnew
    · have hbelow := h.below i j hold
      rcases hij' with hold' | hnew'
      · exact h.unique i j i' j' hold hold'
      · omega
    · rcases hij' with hold' | hnew'
      · have hbelow := h.below i' j' hold'
        omega
      · omega

end Correspond

/-- Programs that differ in nothing but their numbers. -/
structure Programs (pairs : Nat → Nat → Prop) (p q : Program) : Prop where
  identity : pairs p.identity q.identity
  body : p.body = q.body
  data : p.data = q.data
  depths : p.depths = q.depths

theorem Programs.weaken {pairs pairs' : Nat → Nat → Prop} {p q : Program} (h : Programs pairs p q)
    (hpairs : ∀ i j, pairs i j → pairs' i j) : Programs pairs' p q :=
  { h with identity := hpairs _ _ h.identity }

/-- Slots that are alike answer a request alike. -/
theorem request_alike {pairs : Nat → Nat → Prop} {a b : Slots} {left right : Nat}
    (h : a.Alike (Programs pairs) b) (hpairs : Correspond pairs left right) (index : Nat)
    (body : List Node) (data : Option Value) :
    ∃ pairs' : Nat → Nat → Prop, (∀ i j, pairs i j → pairs' i j) ∧
      Correspond pairs' (a.request left index body data).fresh
        (b.request right index body data).fresh ∧
      Programs pairs' (a.request left index body data).program
        (b.request right index body data).program ∧
      (a.request left index body data).slots.Alike (Programs pairs')
        (b.request right index body data).slots := by
  have hgrown : ∀ i j, pairs i j → withPair pairs left right i j := fun _ _ hij => .inl hij
  have hnew : ∀ data, Programs (withPair pairs left right) ⟨left, body, data, []⟩
      ⟨right, body, data, []⟩ := fun _ => ⟨.inr ⟨rfl, rfl⟩, rfl, rfl, rfl⟩
  have hslots := h.weaken fun _ _ hprograms => hprograms.weaken hgrown
  unfold Slots.request
  cases data.filter Value.isTruthy with
  | some d => exact ⟨_, hgrown, hpairs.next, hnew _, hslots⟩
  | none =>
      have hindex := h.get index
      simp only
      cases hleft : a.get? index with
      | none =>
          rw [hleft] at hindex
          cases hright : b.get? index with
          | none => exact ⟨_, hgrown, hpairs.next, hnew _, hslots.set_new hleft hright (hnew _)⟩
          | some q =>
              rw [hright] at hindex
              cases hindex
      | some p =>
          rw [hleft] at hindex
          cases hright : b.get? index with
          | none =>
              rw [hright] at hindex
              cases hindex
          | some q =>
              rw [hright] at hindex
              cases hindex with
              | some hprograms => exact ⟨pairs, fun _ _ hij => hij, hpairs, hprograms, h⟩

/-- What is known of two runs of the same host, the second of which leaves out
the renders of one party: the numbers of the other party's templates and
programs that stand for each other, and whether a page is being written. -/
structure World where
  templates : Nat → Nat → Prop
  programs : Nat → Nat → Prop
  writing : Bool

/-- Numbers that stand for each other go on doing so. -/
structure Knows (w w' : World) : Prop where
  templates : ∀ i j, w.templates i j → w'.templates i j
  programs : ∀ i j, w.programs i j → w'.programs i j

structure Grows (w w' : World) : Prop extends Knows w w' where
  writing : w'.writing = w.writing

theorem Grows.refl (w : World) : Grows w w := ⟨⟨fun _ _ h => h, fun _ _ h => h⟩, rfl⟩

theorem Grows.trans {w₁ w₂ w₃ : World} (h : Grows w₁ w₂) (h' : Grows w₂ w₃) : Grows w₁ w₃ where
  templates i j hij := h'.templates i j (h.templates i j hij)
  programs i j hij := h'.programs i j (h.programs i j hij)
  writing := h'.writing.trans h.writing

/-- Templates of a realm that stand for each other. -/
structure Templates (realm : Realm) (w : World) (t u : Template) : Prop where
  identity : w.templates t.identity u.identity
  environment : t.environment = u.environment
  spec : t.spec = u.spec
  noop : Programs w.programs t.noop u.noop
  serves : realm.Serves t.environment

inductive Entries (realm : Realm) (w : World) : Partial → Partial → Prop
  | compiled {t u : Template} (templates : Templates realm w t u) :
      Entries realm w (.compiled t) (.compiled u)
  | source (text : String) : Entries realm w (.source text) (.source text)

variable {first second : Realm} {templates : List Template} {w w' : World} {s t s' t' : Store}

theorem Templates.grow {a b : Template} (h : Templates second w a b) (hknows : Knows w w') :
    Templates second w' a b :=
  { h with
    identity := hknows.templates _ _ h.identity
    noop := h.noop.weaken hknows.programs }

theorem Entries.grow {a b : Partial} (h : Entries second w a b) (hknows : Knows w w') :
    Entries second w' a b := by
  cases h with
  | compiled templates => exact .compiled (templates.grow hknows)
  | source text => exact .source text

end Isolation

/-- The slots of the template with a number. -/
def Store.slotsAt (store : Store) (identity : Nat) : Slots :=
  (store.slots.get? identity).getD .empty

namespace Isolation

/-- The stores of the two runs. For the second party they differ in numbers
only; and nothing that the first party can come to is known to the second. -/
structure Stores (first second : Realm) (templates : List Template) (w : World) (s t : Store) :
    Prop where
  left : s.Numbered templates
  right : t.Numbered templates
  pen : w.writing = true → s.pen = t.pen
  helpers : s.helpers = t.helpers
  identities : Correspond w.templates s.freshTemplate t.freshTemplate
  programs : Correspond w.programs s.freshProgram t.freshProgram
  partials : ∀ registry, second.registries registry →
    (s.partialsOf registry).Alike (Entries second w) (t.partialsOf registry)
  slots : ∀ i j, w.templates i j → (s.slotsAt i).Alike (Programs w.programs) (t.slotsAt j)
  hosts : ∀ template ∈ templates, first.templates template →
    ∀ j, ¬ w.templates template.identity j
  others : ∀ registry name template, first.registries registry →
    (s.partialsOf registry).get? name = some (.compiled template) →
    first.Serves template.environment ∧ ∀ j, ¬ w.templates template.identity j
  shared : ∀ registry name entry, first.registries registry → second.registries registry →
    (s.partialsOf registry).get? name = some entry →
    ∃ source, entry = .source source ∧ first.Refuse second source

namespace Stores

/-- What touches neither registries nor slots nor numbers is free. -/
theorem congr (h : Stores first second templates w s t) (hpen : w.writing = true → s'.pen = t'.pen)
    (hleft : s' = { s' with
      helpers := s.helpers, partials := s.partials, slots := s.slots
      freshTemplate := s.freshTemplate, freshProgram := s.freshProgram })
    (hright : t' = { t' with
      helpers := t.helpers, partials := t.partials, slots := t.slots
      freshTemplate := t.freshTemplate, freshProgram := t.freshProgram }) :
    Stores first second templates w s' t' := by
  rw [hleft, hright]
  exact { h with
    left := h.left.congr rfl rfl (Nat.le_refl _) (Nat.le_refl _)
    right := h.right.congr rfl rfl (Nat.le_refl _) (Nat.le_refl _)
    pen := hpen }

/-- A page is begun or ended, with other pens. -/
theorem turn (h : Stores first second templates w s t) (writing : Bool) {pen pen' : Pen}
    (hpens : writing = true → pen = pen') :
    Stores first second templates { w with writing } { s with pen } { t with pen := pen' } :=
  { h with
    left := h.left.congr rfl rfl (Nat.le_refl _) (Nat.le_refl _)
    right := h.right.congr rfl rfl (Nat.le_refl _) (Nat.le_refl _)
    pen := hpens
    partials := fun registry hregistry => (h.partials registry hregistry).weaken fun _ _ hentry =>
      hentry.grow ⟨fun _ _ hij => hij, fun _ _ hij => hij⟩ }

/-- The programs that stand for each other may grow in number. -/
theorem growPrograms (h : Stores first second templates w s t) {pairs : Nat → Nat → Prop}
    (hpairs : ∀ i j, w.programs i j → pairs i j) (hslots : ∀ i j, w.templates i j →
      (s'.slotsAt i).Alike (Programs pairs) (t'.slotsAt j))
    (hleft : s'.Numbered templates) (hright : t'.Numbered templates)
    (hprograms : Correspond pairs s'.freshProgram t'.freshProgram)
    (hsame : s' = { s with
      slots := s'.slots, freshProgram := s'.freshProgram, trace := s'.trace })
    (hsame' : t' = { t with
      slots := t'.slots, freshProgram := t'.freshProgram, trace := t'.trace }) :
    Grows w { w with programs := pairs } ∧
      Stores first second templates { w with programs := pairs } s' t' := by
  have hgrown : Grows w { w with programs := pairs } :=
    ⟨⟨fun _ _ hij => hij, hpairs⟩, rfl⟩
  refine ⟨hgrown, ?_⟩
  rw [hsame] at hleft hslots hprograms ⊢
  rw [hsame'] at hright hslots hprograms ⊢
  exact { h with
    left := hleft
    right := hright
    programs := hprograms
    partials := fun registry hregistry =>
      (h.partials registry hregistry).weaken fun _ _ hentry => hentry.grow hgrown.toKnows
    slots := hslots }

/-- A program is made on both sides that no slot keeps. -/
theorem newProgram (h : Stores first second templates w s t) :
    let w' := { w with programs := withPair w.programs s.freshProgram t.freshProgram }
    Grows w w' ∧ Stores first second templates w' { s with freshProgram := s.freshProgram + 1 }
      { t with freshProgram := t.freshProgram + 1 } := by
  have hleft : Store.Numbered templates { s with freshProgram := s.freshProgram + 1 } :=
    h.left.congr rfl rfl (Nat.le_refl _) (Nat.le_succ _)
  have hright : Store.Numbered templates { t with freshProgram := t.freshProgram + 1 } :=
    h.right.congr rfl rfl (Nat.le_refl _) (Nat.le_succ _)
  refine h.growPrograms (fun _ _ => Or.inl) ?_ hleft hright h.programs.next rfl rfl
  intro i j hij
  exact (h.slots i j hij).weaken fun _ _ hprograms => hprograms.weaken fun _ _ => Or.inl

/-- Templates of a realm that stand for each other ask for a program. -/
theorem request {a b : Template} (h : Stores first second templates w s t)
    (htemplates : Templates second w a b) (index : Nat) (body : List Node)
    (data : Option Value) :
    ∃ w' p q s' t', Render.requestProgram a index body data s = (.done p, s') ∧
      Render.requestProgram b index body data t = (.done q, t') ∧
      Grows w w' ∧ Programs w'.programs p q ∧ Stores first second templates w' s' t' := by
  obtain ⟨hmade, hmade'⟩ := h.identities.below _ _ htemplates.identity
  have hleft := h.left.requests hmade index body data
  have hright := h.right.requests hmade' index body data
  obtain ⟨_, hrun⟩ := a.requestProgram_run index body data s
  obtain ⟨_, hrun'⟩ := b.requestProgram_run index body data t
  obtain ⟨pairs, hpairs, hprograms, hprogram, hslots⟩ :=
    request_alike (h.slots _ _ htemplates.identity) h.programs index body data
  rw [hrun] at hleft ⊢
  rw [hrun'] at hright ⊢
  have hstores := h.growPrograms hpairs ?_ hleft hright hprograms rfl rfl
  · exact ⟨_, _, _, _, _, rfl, rfl, hstores.1, hprogram, hstores.2⟩
  · -- Only the slots of these two templates changed, which stand for no others.
    intro i j hij
    have hsame := h.identities.unique _ _ _ _ hij htemplates.identity
    by_cases hi : i = a.identity
    · obtain rfl := hi
      obtain rfl := hsame.mp rfl
      simp only [Store.slotsAt, Table.get?_set_self, Option.getD_some]
      exact hslots
    · have hj : j ≠ b.identity := fun hj => hi (hsame.mpr hj)
      simp only [Store.slotsAt, Table.get?_set_ne _ _ hi, Table.get?_set_ne _ _ hj]
      exact (h.slots i j hij).weaken fun _ _ hprograms => hprograms.weaken hpairs

/-- A template is made on both sides. -/
theorem make (h : Stores first second templates w s t) {environment : Environment}
    (hserves : second.Serves environment) (spec : Spec) :
    ∃ w', Grows w w' ∧
      Templates second w' (s.newTemplate environment spec).1 (t.newTemplate environment spec).1 ∧
      Stores first second templates w' (s.newTemplate environment spec).2
        (t.newTemplate environment spec).2 := by
  let w' : World := ⟨withPair w.templates s.freshTemplate t.freshTemplate,
    withPair w.programs s.freshProgram t.freshProgram, w.writing⟩
  have hgrown : Grows w w' := ⟨⟨fun _ _ hij => .inl hij, fun _ _ hij => .inl hij⟩, rfl⟩
  refine ⟨w', hgrown, ⟨.inr ⟨rfl, rfl⟩, rfl, rfl, ⟨.inr ⟨rfl, rfl⟩, rfl, rfl, rfl⟩, hserves⟩, ?_⟩
  exact { h with
    left := h.left.newTemplate environment spec
    right := h.right.newTemplate environment spec
    identities := h.identities.next
    programs := h.programs.next
    partials := fun registry hregistry =>
      (h.partials registry hregistry).weaken fun _ _ hentry => hentry.grow hgrown.toKnows
    slots := by
      intro i j hij
      rcases hij with hold | ⟨rfl, rfl⟩
      · exact (h.slots i j hold).weaken fun _ _ hprograms => hprograms.weaken hgrown.programs
      · -- Nothing is kept yet for templates that were just made.
        have hleft := h.left.vacant _ (Nat.le_refl _)
        have hright := h.right.vacant _ (Nat.le_refl _)
        simp only [Store.slotsAt, Store.newTemplate, hleft, hright]
        exact .empty
    hosts := by
      intro template member hfirst j hij
      rcases hij with hold | hnew
      · exact h.hosts template member hfirst j hold
      · have := (h.left.templates template member).identity
        omega
    others := by
      intro registry name template hregistry hfound
      obtain ⟨hserved, hunknown⟩ := h.others registry name template hregistry hfound
      refine ⟨hserved, fun j hij => ?_⟩
      rcases hij with hold | hnew
      · exact hunknown j hold
      · have := (h.left.partials registry name template hfound).identity
        omega }

/-- Templates are registered on both sides where the first party does not look. -/
theorem register {a b : Template} (h : Stores first second templates w s t)
    (htemplates : Templates second w a b) (hleft : s.Numbers a) (hright : t.Numbers b)
    {registry : Nat} (hregistry : ¬ first.registries registry) (name : String) :
    Stores first second templates w (s.registerPartial registry name (.compiled a))
      (t.registerPartial registry name (.compiled b)) := by
  have helsewhere : ∀ other, first.registries other →
      (s.registerPartial registry name (.compiled a)).partialsOf other = s.partialsOf other := by
    intro other hother
    rw [Store.partialsOf_registerPartial, if_neg]
    rintro rfl
    exact hregistry hother
  refine { h with left := ?_, right := ?_, partials := ?_, others := ?_, shared := ?_ }
  · refine h.left.registerPartial ?_ registry name
    rintro _ ⟨⟩
    exact hleft
  · refine h.right.registerPartial ?_ registry name
    rintro _ ⟨⟩
    exact hright
  · intro other hother
    rw [Store.partialsOf_registerPartial, Store.partialsOf_registerPartial]
    split
    case isTrue hsame =>
      subst hsame
      exact (h.partials other hother).register name (.compiled htemplates)
    case isFalse => exact h.partials other hother
  · intro other name' template hother
    rw [helsewhere other hother]
    exact h.others other name' template hother
  · intro other name' entry hother
    rw [helsewhere other hother]
    exact h.shared other name' entry hother

end Stores

end Isolation

end Stencil
