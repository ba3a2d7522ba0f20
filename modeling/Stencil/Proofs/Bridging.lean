import Stencil.Proofs.SourceCalls

/-!
Pages and the names in the registries. A stand-in for a partial is a source into
which the name is pasted between double quotes, so it refers to whatever that
name spells there. Main statements: what each name leads to on a page, whatever
the registries hold, and that every partial is reached under its own name if and
only if no name has a backslash or a control character in it.
-/

namespace Stencil

namespace Page

variable {store after : Store} {frame : Frame} {page : Page} {name other : String}

/-- A page can refer to a partial of this name. -/
def Referable (name : String) : Prop :=
  name ≠ ownName ∧ ∀ c ∈ name.toList, c ≠ '"' ∧ c ≠ '\x7b' ∧ c ≠ '\x7d'

/-- A frame finds a partial of this name, and a page can refer to it. -/
def Offers (store : Store) (frame : Frame) (name : String) : Prop :=
  (store.entry? frame name).isSome ∧ Referable name

/-- What stands between the quotes is read as the name. -/
def Spells (written name : String) : Prop := Json.Spells written.toList name.toList

/-- A name without escapes and control characters. -/
def IsPlain (name : String) : Prop := ∀ c ∈ name.toList, c ≠ '\\' ∧ 0x20 ≤ c.toNat

/-- Pages of the frame are written: they go on to their elements, from a store
that holds what it held. -/
def Begins (store : Store) (frame : Frame) : Prop :=
  ∀ elements context, ∃ begun, begun.SameHoldings store ∧ ∀ worker,
    Page.render worker frame elements context store =
      Render.withPen (worker (.page (.start frame elements context.toJson.1) elements)) begun

/-- Pages of the frame are refused for the name of a partial. -/
def Refuses (store : Store) (frame : Frame) (name : String) : Prop :=
  ∀ worker elements context, Page.render worker frame elements context store =
    (.failed (.exception ("Partial " ++ name ++ " could not be bridged") (some .grammar)), store)

/-- Every partial that the pages of a frame can refer to is reached under its own
name. -/
structure Faithful (store : Store) (frame : Frame) : Prop where
  begins : Begins store frame
  partials : ∀ page : Page, page.frame = frame → ∀ name, Offers store frame name →
    partial? store page name = some (standIn name)

/-- What names lead to on the pages of a frame. -/
structure Bridge (store : Store) (frame : Frame) : Prop where
  /-- The page itself is a partial, whatever the registries hold. -/
  own : ∀ page : Page, page.frame = frame → partial? store page ownName = some page.elements
  dispatcher : callee? store frame Page.dispatcher = some .dispatcher
  /-- No registry takes a name away that stands for blocks of pages. -/
  native : ∀ name, (Builtin.ofName? name).isSome →
    callee? store frame name = (Native.ofName? name).map .native
  helper : ∀ name, (store.helper? frame name).isSome → Builtin.ofName? name = none →
    name ≠ Page.dispatcher → callee? store frame name = some (.registered name)
  unregistered : ∀ name, store.helper? frame name = none → name ≠ Page.dispatcher →
    callee? store frame name = (Native.ofName? name).map .native
  /-- A helper of the registries is called under the very name. -/
  calls : ∀ page : Page, page.frame = frame → ∀ reuse worker name arguments block,
    page.call reuse worker (.registered name) arguments block =
      Yield.output <$> outside (frame.callHelper worker name (Value.ofJson page.data)
        (Value.ofJson ((arguments.plain.head?.map Found.value).getD page.data)) (.ofFrame frame))
  /-- A partial of the registries has the stand-in for what its name spells. -/
  partials : ∀ page : Page, page.frame = frame → ∀ name elements, name ≠ ownName →
    (partial? store page name = some elements ↔
      Offers store frame name ∧ ∃ spelled, Spells name spelled ∧ elements = standIn spelled)
  /-- A stand-in invokes the partial for which it was made. -/
  invokes : ∀ page : Page, page.frame = frame → ∀ own, (page.scopeAt 0).own = some own →
    ∀ reuse worker name, Render.concat (page.renderElement reuse worker) (standIn name) =
      part (fun pen => pen.indents || (false && pen.endsLine))
        (outside (frame.invokePartial reuse worker name (Value.ofJson own)))
  begins : Begins store frame ↔ ∀ name, Offers store frame name → ∃ spelled, Spells name spelled
  /-- The first name that spells nothing is why every page is refused. -/
  refuses : ∀ name, Offers store frame name → (¬ ∃ spelled, Spells name spelled) →
    ∃ first, Offers store frame first ∧ (¬ ∃ spelled, Spells first spelled) ∧
      (first = name ∨ first < name) ∧ Refuses store frame first

/-- After a registration under one name every other name leads to what it led to
in a frame and on its pages, and these are written if they were. -/
structure LeavesOthers (store after : Store) (frame : Frame) (name : String) : Prop where
  helpers : ∀ other, other ≠ name → after.helper? frame other = store.helper? frame other
  entries : ∀ other, other ≠ name → after.entry? frame other = store.entry? frame other
  callees : ∀ other, other ≠ name → callee? after frame other = callee? store frame other
  partials : ∀ page : Page, page.frame = frame → ∀ other, other ≠ name →
    partial? after page other = partial? store page other
  begins : Begins after frame ↔ Begins store frame

theorem referable_iff : isReferable name = true ↔ Referable name := by
  simp [isReferable, Referable, and_assoc]

theorem mem_partialNames_iff : name ∈ partialNames store frame ↔ Offers store frame name := by
  rw [mem_partialNames, referable_iff]
  rfl

theorem standIn?_iff (h : Referable name) {elements : List Source.Element} :
    standIn? name = some elements ↔
      ∃ spelled, Spells name spelled ∧ elements = standIn spelled := by
  rw [standIn?_eq_some_iff (referable_iff.mpr h)]
  constructor
  · rintro ⟨content, hspells, rfl⟩
    refine ⟨String.ofList content, ?_, rfl⟩
    unfold Spells
    rwa [String.toList_ofList]
  · rintro ⟨spelled, hspells, rfl⟩
    exact ⟨spelled.toList, hspells, by rw [String.ofList_toList]⟩

theorem standIn?_isSome_iff (h : Referable name) :
    (standIn? name).isSome ↔ ∃ spelled, Spells name spelled := by
  rw [Option.isSome_iff_exists]
  constructor
  · rintro ⟨elements, hstandIn⟩
    obtain ⟨spelled, hspells, -⟩ := (standIn?_iff h).mp hstandIn
    exact ⟨spelled, hspells⟩
  · rintro ⟨spelled, hspells⟩
    exact ⟨_, (standIn?_iff h).mpr ⟨spelled, hspells, rfl⟩⟩

theorem spells_self_iff (h : Referable name) : Spells name name ↔ IsPlain name := by
  unfold Spells
  rw [Json.Spells.self_iff]
  constructor
  · intro hself c member
    exact (hself c member).2
  · intro hplain c member
    exact ⟨(h.2 c member).1, hplain c member⟩

theorem standIn_injective (h : standIn name = standIn other) : name = other := by
  simpa [standIn] using h

/-! A lookup on a page depends on what the registries hold under that name. -/

theorem callee?_congr (h : after.helper? frame name = store.helper? frame name) :
    callee? after frame name = callee? store frame name := by
  unfold callee?
  rw [contains_helperNames, contains_helperNames, h]

theorem partial?_congr (h : after.entry? page.frame name = store.entry? page.frame name) :
    partial? after page name = partial? store page name := by
  unfold partial?
  rw [contains_partialNames, contains_partialNames, h]

theorem partial?_iff (store : Store) (page : Page) (hname : name ≠ ownName)
    {elements : List Source.Element} :
    partial? store page name = some elements ↔
      Offers store page.frame name ∧
        ∃ spelled, Spells name spelled ∧ elements = standIn spelled := by
  unfold partial?
  rw [if_neg hname]
  by_cases hoffers : Offers store page.frame name
  · rw [if_pos (List.contains_iff_mem.mpr (mem_partialNames_iff.mpr hoffers)),
      standIn?_iff hoffers.2]
    exact ⟨fun h => ⟨hoffers, h⟩, fun h => h.2⟩
  · rw [if_neg fun h => hoffers (mem_partialNames_iff.mp (List.contains_iff_mem.mp h))]
    exact ⟨nofun, fun h => absurd h.1 hoffers⟩

/-! Whether a page is written. -/

theorem checkPartials_fails {before : List String} (rest : List String)
    (hbefore : ∀ other ∈ before, (standIn? other).isSome) (hname : standIn? name = none) :
    checkPartials (before ++ name :: rest) =
      Render.fail (.exception ("Partial " ++ name ++ " could not be bridged") (some .grammar)) := by
  induction before with
  | nil => simp only [List.nil_append, checkPartials, hname]
  | cons other before ih =>
      obtain ⟨elements, hother⟩ := Option.isSome_iff_exists.mp (hbefore other List.mem_cons_self)
      have hrest := ih fun known member => hbefore known (List.mem_cons_of_mem other member)
      simp only [List.cons_append, checkPartials, hother]
      exact hrest

theorem begins_of_spelled
    (h : ∀ name, Offers store frame name → ∃ spelled, Spells name spelled) :
    Begins store frame := by
  intro elements context
  have hstandIns : ∀ name ∈ partialNames store frame, (standIn? name).isSome := by
    intro name member
    have hoffers := mem_partialNames_iff.mp member
    exact (standIn?_isSome_iff hoffers.2).mpr (h name hoffers)
  obtain ⟨bridged, tally, hrun⟩ := render_run elements context hstandIns
  exact ⟨_, (Store.SameHoldings.refl store).congr rfl rfl, hrun⟩

/-- The names are gone through in ascending order, so the first one without a
stand-in is met. -/
theorem refuses_first (hoffers : Offers store frame name)
    (hnone : ¬ ∃ spelled, Spells name spelled) :
    ∃ first, Offers store frame first ∧ (¬ ∃ spelled, Spells first spelled) ∧
      (first = name ∨ first < name) ∧ Refuses store frame first := by
  have hunread : ∀ known, known ∈ partialNames store frame →
      ((standIn? known).isNone = true ↔ ¬ ∃ spelled, Spells known spelled) := by
    intro known member
    have hoffered := mem_partialNames_iff.mp member
    rw [← standIn?_isSome_iff hoffered.2]
    simp
  have member := mem_partialNames_iff.mpr hoffers
  cases hfind : (partialNames store frame).find? fun known => (standIn? known).isNone with
  | none =>
      have hall := List.find?_eq_none.mp hfind name member
      exact absurd ((hunread name member).mpr hnone) hall
  | some first =>
      obtain ⟨hfirst, before, rest, hnames, hbefore⟩ := List.find?_eq_some_iff_append.mp hfind
      have hmember : first ∈ partialNames store frame := by simp [hnames]
      refine ⟨first, mem_partialNames_iff.mp hmember, (hunread first hmember).mp hfirst, ?_, ?_⟩
      · have hordered : (partialNames store frame).Pairwise (· < ·) :=
          (Registry.names_pairwise _).filter _
        have hname := (hunread name member).mpr hnone
        rw [hnames] at member hordered
        rcases List.mem_append.mp member with hpassed | hahead
        · have hread := hbefore name hpassed
          rw [hname] at hread
          cases hread
        · rcases List.mem_cons.mp hahead with rfl | hlater
          · exact .inl rfl
          · have hafter := (List.pairwise_append.mp hordered).2.1
            exact .inr ((List.pairwise_cons.mp hafter).1 name hlater)
      · intro worker elements context
        have hread : ∀ other ∈ before, (standIn? other).isSome := by
          intro other hother
          simpa using hbefore other hother
        have hfails := checkPartials_fails rest hread (Option.isNone_iff_eq_none.mp hfirst)
        simp only [Page.render, Render.bind_run, Render.look, hnames, hfails]
        rfl

theorem begins_iff :
    Begins store frame ↔ ∀ name, Offers store frame name → ∃ spelled, Spells name spelled := by
  refine ⟨fun h name hoffers => ?_, begins_of_spelled⟩
  by_contra hnone
  obtain ⟨first, -, -, -, hrefuses⟩ := refuses_first hoffers hnone
  obtain ⟨begun, -, hrun⟩ := h [] .null
  have hwritten := (hrun fun _ => pure "").symm.trans (hrefuses _ [] .null)
  cases congrArg Prod.fst hwritten

/-- Whatever the registries hold, names lead on a page to what is theirs. -/
theorem bridge (store : Store) (frame : Frame) : Bridge store frame where
  own page _ := if_pos rfl
  dispatcher := if_pos rfl
  native name hbuiltin := by
    have hname : name ≠ Page.dispatcher := by
      rintro rfl
      revert hbuiltin
      decide
    obtain ⟨builtin, hbuiltin⟩ := Option.isSome_iff_exists.mp hbuiltin
    unfold callee?
    rw [if_neg hname, contains_helperNames, hbuiltin, Option.isNone_some, Bool.and_false]
    rfl
  helper name hfound hbuiltin hname := by
    unfold callee?
    rw [if_neg hname, contains_helperNames, hfound, hbuiltin]
    rfl
  unregistered name hnone hname := by
    unfold callee?
    rw [if_neg hname, contains_helperNames, hnone]
    rfl
  calls := by
    rintro page rfl reuse worker name arguments block
    rfl
  partials := by
    rintro page rfl name elements hname
    exact partial?_iff store page hname
  invokes := by
    rintro page rfl own hown reuse worker name
    exact standIn_run page hown
  begins := begins_iff
  refuses _ := refuses_first

/-- The partials are reached under their own names if these need no escapes, and
only then. -/
theorem faithful_iff :
    Faithful store frame ↔ ∀ name, Offers store frame name → IsPlain name := by
  constructor
  · intro h name hoffers
    have hpartial := h.partials (.start frame [] .null) rfl name hoffers
    obtain ⟨-, spelled, hspells, hsame⟩ :=
      (partial?_iff store (.start frame [] .null) hoffers.2.1).mp hpartial
    rw [← standIn_injective hsame] at hspells
    exact (spells_self_iff hoffers.2).mp hspells
  · intro h
    have hself : ∀ name, Offers store frame name → Spells name name := fun name hoffers =>
      (spells_self_iff hoffers.2).mpr (h name hoffers)
    refine ⟨begins_of_spelled fun name hoffers => ⟨name, hself name hoffers⟩, ?_⟩
    rintro page rfl name hoffers
    exact (partial?_iff store page hoffers.2.1).mpr ⟨hoffers, name, hself name hoffers, rfl⟩

theorem leavesOthers_registerHelper (store : Store) (frame : Frame) (registry : Nat)
    (name : String) (helper : Helper) :
    LeavesOthers store (store.registerHelper registry name helper) frame name := by
  have hhelper : ∀ other, other ≠ name →
      (store.registerHelper registry name helper).helper? frame other =
        store.helper? frame other := by
    intro other hother
    unfold Store.helper?
    simp only [Store.get?_registerHelper, hother, and_false, if_false]
  have hentry : ∀ frame other,
      Store.entry? (store.registerHelper registry name helper) frame other =
        store.entry? frame other :=
    fun frame other => Store.entry?_congr rfl frame other
  constructor
  case helpers => exact hhelper
  case entries => exact fun other _ => hentry frame other
  case callees => exact fun other hother => callee?_congr (hhelper other hother)
  case partials => exact fun page _ other _ => partial?_congr (hentry page.frame other)
  case begins => simp only [begins_iff, Offers, hentry]

theorem leavesOthers_registerPartial (store : Store) (frame : Frame) (registry : Nat)
    {name : String} (entry : Partial) (h : Referable name → ∃ spelled, Spells name spelled) :
    LeavesOthers store (store.registerPartial registry name entry) frame name := by
  have hentry : ∀ frame other, other ≠ name →
      Store.entry? (store.registerPartial registry name entry) frame other =
        store.entry? frame other := by
    intro frame other hother
    simp only [Store.entry?_eq, Store.get?_registerPartial, hother, and_false, if_false]
  have hoffers : ∀ other, other ≠ name →
      (Offers (store.registerPartial registry name entry) frame other ↔
        Offers store frame other) := by
    intro other hother
    unfold Offers
    rw [hentry frame other hother]
  constructor
  case helpers => exact fun _ _ => rfl
  case entries => exact hentry frame
  case callees => exact fun other _ => callee?_congr rfl
  case partials => exact fun page _ other hother => partial?_congr (hentry page.frame other hother)
  case begins =>
    rw [begins_iff, begins_iff]
    -- The name itself spells something, so only the others count.
    constructor
    · intro hspelled other hoffered
      by_cases hother : other = name
      · exact hother ▸ h (hother ▸ hoffered.2)
      · exact hspelled other ((hoffers other hother).mpr hoffered)
    · intro hspelled other hoffered
      by_cases hother : other = name
      · exact hother ▸ h (hother ▸ hoffered.2)
      · exact hspelled other ((hoffers other hother).mp hoffered)

/-- What each name leads to on the pages of a frame, and what registrations
change about it. -/
theorem names_bridged (store : Store) (frame : Frame) :
    Bridge store frame ∧
    (Faithful store frame ↔ ∀ name, Offers store frame name → IsPlain name) ∧
    (∀ registry name helper,
      LeavesOthers store (store.registerHelper registry name helper) frame name) ∧
    ∀ registry name entry, (Referable name → ∃ spelled, Spells name spelled) →
      LeavesOthers store (store.registerPartial registry name entry) frame name := by
  refine ⟨bridge store frame, faithful_iff, ?_, ?_⟩
  · exact leavesOthers_registerHelper store frame
  · exact fun registry name entry h => leavesOthers_registerPartial store frame registry entry h

end Page

namespace Crowd

def template : Template :=
  ⟨0, ⟨0, 0, {}, some .pages, .standard⟩, .page [.text "x"], ⟨0, [], none, []⟩⟩

def frame : Frame := ⟨template, {}⟩

/-- A helper under two names, of which one is that of the dispatcher, and partials
of which only one can be referred to. -/
def store : Store :=
  ((((Store.empty.registerHelper 0 "shout" ⟨.nodes [.text "!"], none⟩).registerHelper 0
    Page.dispatcher ⟨.nodes [.text "?"], none⟩).registerPartial 0 "p" (.source "P")).registerPartial
      0 Page.ownName (.source "S")).registerPartial 0 "a\"b" (.source "Q")

theorem offers_plain : ∀ name, Page.Offers store frame name → Page.IsPlain name := by
  rintro name ⟨hfound, hown, hquote⟩
  have hentry : store.entry? frame name = (store.partialsOf 0).get? name := rfl
  rw [hentry] at hfound
  by_cases hplain : name = "p"
  · subst hplain
    simp [Page.IsPlain]
  · have hquoted : name ≠ "a\"b" := by
      rintro rfl
      exact (hquote '"' (by decide)).1 rfl
    simp only [store, Store.get?_registerPartial, hplain, hquoted, hown, and_false,
      if_false] at hfound
    cases hfound

/-- In quotes, two backslashes are one. -/
theorem spells_backslash : Page.Spells "a\\\\q" "a\\q" := by
  have hletter : ∀ c, c ≠ '"' → c ≠ '\\' → 0x20 ≤ c.toNat →
      Json.Spells [c] [c] := by
    intro c hquote hslash hcontrol
    exact Json.Spells.of_plain (by simp [hquote, hslash, hcontrol])
  have hescape : Json.Spells ['\\', '\\'] ['\\'] := Reader.Takes.one fun _ => rfl
  exact ((hletter 'a' (by decide) (by decide) (by decide)).append hescape).append
    (hletter 'q' (by decide) (by decide) (by decide))

end Crowd

/-- Names that are taken or that cannot be referred to are in nobody's way. -/
theorem Page.names_bridged_crowded :
    Page.Faithful Crowd.store Crowd.frame ∧
    Page.callee? Crowd.store Crowd.frame "shout" = some (.registered "shout") ∧
    Page.callee? Crowd.store Crowd.frame Page.dispatcher = some .dispatcher ∧
    Page.LeavesOthers Crowd.store (Crowd.store.registerPartial 0 "a\\\\q" (.source "R")) Crowd.frame
      "a\\\\q" := by
  obtain ⟨hbridge, hfaithful, -, hleaves⟩ := Page.names_bridged Crowd.store Crowd.frame
  refine ⟨hfaithful.mpr Crowd.offers_plain, ?_, hbridge.dispatcher, ?_⟩
  · exact hbridge.helper "shout" (by decide +kernel) (by decide) (by decide)
  · exact hleaves 0 "a\\\\q" (.source "R") fun _ => ⟨"a\\q", Crowd.spells_backslash⟩

/-- A partial whose name spells nothing in quotes has every page refused, and one
whose name has escapes in it is not reached under that name. -/
theorem Page.names_bridged_otherwise :
    (Task.run {} 5 (.template Crowd.template .null {}) Crowd.store).1 = .done "x" ∧
    Page.Offers (Crowd.store.registerPartial 0 "a\\q" (.source "R")) Crowd.frame "a\\q" ∧
    (Task.run {} 5 (.template Crowd.template .null {})
      (Crowd.store.registerPartial 0 "a\\q" (.source "R"))).1 =
        .failed (.exception "Partial a\\q could not be bridged" (some .grammar)) ∧
    Page.Offers (Crowd.store.registerPartial 0 "a\\\\q" (.source "R")) Crowd.frame "a\\\\q" ∧
    Page.partial? (Crowd.store.registerPartial 0 "a\\\\q" (.source "R"))
      (.start Crowd.frame [] .null) "a\\\\q" = some (Page.standIn "a\\q") := by
  have hoffers : ∀ name, Page.Referable name →
      Page.Offers (Crowd.store.registerPartial 0 name (.source "R")) Crowd.frame name := by
    intro name hreferable
    refine ⟨?_, hreferable⟩
    have hentry : Store.entry? (Crowd.store.registerPartial 0 name (.source "R")) Crowd.frame name =
        ((Crowd.store.registerPartial 0 name (.source "R")).partialsOf 0).get? name := rfl
    rw [hentry, Store.get?_registerPartial, if_pos ⟨rfl, rfl⟩]
    rfl
  have hsingle : Page.Referable "a\\q" := by
    simp [Page.Referable, Page.ownName]
  have hdouble : Page.Referable "a\\\\q" := by
    simp [Page.Referable, Page.ownName]
  refine ⟨by decide +kernel, hoffers _ hsingle, by decide +kernel, hoffers _ hdouble, ?_⟩
  exact (Page.partial?_iff _ _ (by decide)).mpr
    ⟨hoffers _ hdouble, "a\\q", Crowd.spells_backslash, rfl⟩

end Stencil
