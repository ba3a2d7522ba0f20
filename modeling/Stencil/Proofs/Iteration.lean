import Stencil.Render.Run

/-!
Iterations. The block is run on one item after another, each run going on from
the store that the one before it left, and the texts are counted in bytes as
they come. An iteration ends after its last item, or with the first one where
the block fails or where all texts so far are more than the settings admit; of
the items behind that one nothing is run.
-/

namespace Stencil

/-- The texts that an action gives for items: for each of them once and in
order, and each from the store that the item before it left. -/
inductive Render.Gives {α : Type} (action : α → Render String) :
    List α → List String → Store → Store → Prop
  | nil (store : Store) : Gives action [] [] store store
  | cons {item : α} {items : List α} {text : String} {texts : List String}
      {store next last : Store} (first : action item store = (.done text, next))
      (rest : Gives action items texts next last) :
      Gives action (item :: items) (text :: texts) store last

namespace Text

/-- How many bytes texts have together. -/
def bytesOf : List String → Nat
  | [] => 0
  | text :: texts => text.utf8ByteSize + bytesOf texts

theorem utf8ByteSize_join (texts : List String) :
    (String.join texts).utf8ByteSize = bytesOf texts := by
  induction texts with
  | nil => simp [bytesOf]
  | cons text texts ih => simp [bytesOf, String.utf8ByteSize_append, ih]

theorem bytesOf_concat (texts : List String) (text : String) :
    bytesOf (texts ++ [text]) = bytesOf texts + text.utf8ByteSize := by
  induction texts with
  | nil => simp [bytesOf]
  | cons first texts ih => simp [bytesOf, ih, Nat.add_assoc]

end Text

namespace Render.Gives

variable {α : Type} {action : α → Render String} {before : List α} {item : α}
  {texts : List String} {text : String} {store next last : Store}

/-- One more item goes on from where the others ended. -/
theorem concat (given : Gives action before texts store next)
    (shown : action item next = (.done text, last)) :
    Gives action (before ++ [item]) (texts ++ [text]) store last := by
  induction given with
  | nil store => exact .cons shown (.nil last)
  | cons first rest ih => exact .cons first (ih shown)

end Render.Gives

/-- Whether so many bytes are within the bound on output, if there is one. -/
def Settings.Admits (settings : Settings) (size : Nat) : Prop :=
  ∀ limit, settings.maxOutputBytes = some limit → size ≤ limit

namespace Settings

variable {settings : Settings} {size : Nat}

theorem Admits.mono {less : Nat} (h : settings.Admits size) (hless : less ≤ size) :
    settings.Admits less :=
  fun limit hlimit => Nat.le_trans hless (h limit hlimit)

theorem admits_zero (settings : Settings) : settings.Admits 0 :=
  fun limit _ => limit.zero_le

theorem admits_or_exceeds (settings : Settings) (size : Nat) :
    settings.Admits size ∨ ∃ limit, settings.maxOutputBytes = some limit ∧ limit < size := by
  cases hbound : settings.maxOutputBytes with
  | none => exact .inl fun limit hlimit => nomatch hbound.symm.trans hlimit
  | some limit =>
      rcases Nat.lt_or_ge limit size with hover | hwithin
      · exact .inr ⟨limit, rfl, hover⟩
      · refine .inl fun other hother => ?_
        obtain rfl := Option.some.inj (hbound.symm.trans hother)
        exact hwithin

end Settings

/-- The failure of an iteration whose texts are too long together. -/
def RenderError.tooLong (size limit : Nat) : RenderError :=
  .resourceLimit "output_size"
    ("Block output " ++ Text.numeral size ++ " bytes exceeds limit of " ++ Text.numeral limit ++
      " bytes")

/-- How an iteration over items ends from a store. -/
inductive Frame.Iterates (frame : Frame) (block : Value → Render String) (items : List Value)
    (store : Store) : Outcome String × Store → Prop
  /-- Every item was shown, and all texts together are short enough. -/
  | ends {texts : List String} {last : Store} (given : Render.Gives block items texts store last)
      (admitted : frame.settings.Admits (Text.bytesOf texts)) :
      Iterates frame block items store (.done (String.join texts), last)
  /-- The block fails on an item, after texts that were short enough. -/
  | fails {before after : List Value} {item : Value} {texts : List String} {mid last : Store}
      {e : RenderError} (split : items = before ++ item :: after)
      (given : Render.Gives block before texts store mid)
      (admitted : frame.settings.Admits (Text.bytesOf texts))
      (failed : block item mid = (.failed e, last)) :
      Iterates frame block items store (.failed e, last)
  /-- No levels are left for the block on an item. -/
  | stops {before after : List Value} {item : Value} {texts : List String} {mid last : Store}
      (split : items = before ++ item :: after)
      (given : Render.Gives block before texts store mid)
      (admitted : frame.settings.Admits (Text.bytesOf texts))
      (stopped : block item mid = (.exhausted, last)) :
      Iterates frame block items store (.exhausted, last)
  /-- The text of an item is what makes the texts too long. -/
  | exceeds {before after : List Value} {item : Value} {texts : List String} {text : String}
      {mid last : Store} {limit : Nat} (split : items = before ++ item :: after)
      (given : Render.Gives block before texts store mid)
      (admitted : frame.settings.Admits (Text.bytesOf texts))
      (shown : block item mid = (.done text, last))
      (bound : frame.settings.maxOutputBytes = some limit)
      (above : limit < Text.bytesOf texts + text.utf8ByteSize) :
      Iterates frame block items store
        (.failed (.tooLong (Text.bytesOf texts + text.utf8ByteSize) limit),
          last.note (.outputExceeded (Text.bytesOf texts + text.utf8ByteSize) limit))

namespace Frame

section

variable {frame : Frame} {size limit : Nat} {store : Store}

theorem checkOutput_admitted (h : frame.settings.Admits size) (store : Store) :
    frame.checkOutput size store = (.done (), store) := by
  unfold checkOutput
  cases hbound : frame.settings.maxOutputBytes with
  | none => rfl
  | some limit =>
      have hwithin : ¬ limit < size := Nat.not_lt.mpr (h limit hbound)
      simp only [hwithin, if_false]
      rfl

theorem checkOutput_exceeded (hbound : frame.settings.maxOutputBytes = some limit)
    (hover : limit < size) (store : Store) :
    frame.checkOutput size store =
      (.failed (.tooLong size limit), store.note (.outputExceeded size limit)) := by
  simp only [checkOutput, hbound, hover, if_true]
  rfl

end

variable {frame : Frame} {worker : Worker} {options : HelperOptions} {soFar text : String}
  {before items : List Value} {item : Value} {texts : List String} {store mid last : Store}

/-- An iteration goes on behind an item whose text is short enough. -/
theorem renderEach_next (shown : options.renderBlock worker frame item store = (.done text, mid))
    (admitted : frame.settings.Admits (soFar ++ text).utf8ByteSize) :
    renderEach.go frame worker options soFar (item :: items) store =
      renderEach.go frame worker options (soFar ++ text) items mid := by
  simp only [renderEach.go, Render.bind_run, shown, checkOutput_admitted admitted]

/-- An iteration goes on behind all items whose texts are short enough together.
The induction is on the items; the bound on all texts is one on the first of
them. -/
theorem renderEach_past (items : List Value)
    (given : Render.Gives (options.renderBlock worker frame) before texts store mid)
    (admitted : frame.settings.Admits (soFar.utf8ByteSize + Text.bytesOf texts)) :
    renderEach.go frame worker options soFar (before ++ items) store =
      renderEach.go frame worker options (soFar ++ String.join texts) items mid := by
  induction given generalizing soFar with
  | nil store => simp
  | @cons item before text texts store next last first rest ih =>
      have hsize : soFar.utf8ByteSize + Text.bytesOf (text :: texts) =
          (soFar ++ text).utf8ByteSize + Text.bytesOf texts := by
        simp [Text.bytesOf, String.utf8ByteSize_append, Nat.add_assoc]
      rw [hsize] at admitted
      have hfirst := admitted.mono (Nat.le_add_right _ _)
      rw [List.cons_append, renderEach_next first hfirst, ih admitted, String.join_cons,
        String.append_assoc]

/-- Before any of them the texts count for nothing. -/
theorem renderEach_split (items : List Value)
    (given : Render.Gives (options.renderBlock worker frame) before texts store mid)
    (admitted : frame.settings.Admits (Text.bytesOf texts)) :
    frame.renderEach worker options (before ++ items) store =
      renderEach.go frame worker options (String.join texts) items mid := by
  have hfrom : frame.settings.Admits ("".utf8ByteSize + Text.bytesOf texts) := by
    simpa using admitted
  have hpast := renderEach_past items given hfrom
  rwa [String.empty_append] at hpast

/-- What is told of the end of an iteration is how it ends. -/
theorem Iterates.renderEach_eq {result : Outcome String × Store}
    (h : frame.Iterates (options.renderBlock worker frame) items store result) :
    frame.renderEach worker options items store = result := by
  cases h with
  | ends given admitted =>
      have hall := renderEach_split [] given admitted
      rw [List.append_nil] at hall
      exact hall
  | fails split given admitted failed =>
      rw [split, renderEach_split _ given admitted]
      simp only [renderEach.go, Render.bind_run, failed]
  | stops split given admitted stopped =>
      rw [split, renderEach_split _ given admitted]
      simp only [renderEach.go, Render.bind_run, stopped]
  | @exceeds _ _ item texts text mid last limit split given admitted shown bound above =>
      have hsize : (String.join texts ++ text).utf8ByteSize =
          Text.bytesOf texts + text.utf8ByteSize := by
        rw [String.utf8ByteSize_append, Text.utf8ByteSize_join]
      rw [split, renderEach_split _ given admitted]
      simp only [renderEach.go, Render.bind_run, shown, hsize, checkOutput_exceeded bound above]

/-- Behind items with short enough texts an iteration ends in some way. -/
theorem iterates_from {block : Value → Render String} (items : List Value)
    (given : Render.Gives block before texts store mid)
    (admitted : frame.settings.Admits (Text.bytesOf texts)) :
    ∃ result, frame.Iterates block (before ++ items) store result := by
  induction items generalizing before texts mid with
  | nil => exact ⟨_, .ends ((List.append_nil before).symm ▸ given) admitted⟩
  | cons item items ih =>
      rcases hrun : block item mid with ⟨text | e | _, last⟩
      · rcases frame.settings.admits_or_exceeds (Text.bytesOf texts + text.utf8ByteSize) with
          hwithin | ⟨limit, hbound, hover⟩
        · rw [← Text.bytesOf_concat] at hwithin
          have hnext := ih (given.concat hrun) hwithin
          rwa [List.append_assoc] at hnext
        · exact ⟨_, .exceeds rfl given admitted hrun hbound hover⟩
      · exact ⟨_, .fails rfl given admitted hrun⟩
      · exact ⟨_, .stops rfl given admitted hrun⟩

theorem renderEach_iterates (frame : Frame) (worker : Worker) (options : HelperOptions)
    (items : List Value) (store : Store) :
    frame.Iterates (options.renderBlock worker frame) items store
      (frame.renderEach worker options items store) := by
  have hnone : Render.Gives (options.renderBlock worker frame) [] [] store store := .nil store
  obtain ⟨result, hends⟩ := iterates_from items hnone frame.settings.admits_zero
  rw [List.nil_append] at hends
  rwa [hends.renderEach_eq]

end Frame

/-- The built-in helpers that iterate over an array iterate over one that is not
empty. -/
theorem Builtin.call_array {helper : Builtin}
    (hhelper : helper = .each ∨ helper = .blockHelperMissing) {items : List Value}
    (hitems : items ≠ []) (worker : Worker) (frame : Frame) (scope : Value)
    (options : HelperOptions) :
    helper.call worker frame scope (.array items) options =
      frame.renderEach worker options items := by
  cases items with
  | nil => exact absurd rfl hitems
  | cons item rest => rcases hhelper with rfl | rfl <;> rfl

/-- An iteration runs its block on the items of an array, the first one first and
each of them once, from the store that the one before it left. It ends with the
first item on which the block fails, and with that failure; or with the first
one whose text makes all texts so far longer than the settings admit, and then
the failure names how many bytes they have and how many are admitted; or behind
the last item with all texts in a row. What is told of its end is how it ends,
so nothing is run on the items behind that one. Nothing is asked of what carries
the block out: the block may iterate itself, and so may what it leads to, and
the text of each iteration is within the bound of its frame. -/
theorem Builtin.iterates_in_order {helper : Builtin}
    (hhelper : helper = .each ∨ helper = .blockHelperMissing) {items : List Value}
    (hitems : items ≠ []) (worker : Worker) (frame : Frame) (scope : Value)
    (options : HelperOptions) (store : Store) :
    (∀ result, helper.call worker frame scope (.array items) options store = result ↔
      frame.Iterates (options.renderBlock worker frame) items store result) ∧
    ∀ text last, helper.call worker frame scope (.array items) options store = (.done text, last) →
      frame.settings.Admits text.utf8ByteSize ∧
      ∃ texts, text = String.join texts ∧
        Render.Gives (options.renderBlock worker frame) items texts store last := by
  rw [Builtin.call_array hhelper hitems]
  have hends := frame.renderEach_iterates worker options items store
  refine ⟨fun result => ⟨?_, Frame.Iterates.renderEach_eq⟩, fun text last hdone => ?_⟩
  · rintro rfl
    exact hends
  · rw [hdone] at hends
    cases hends with
    | @ends texts _ given admitted =>
        rw [Text.utf8ByteSize_join]
        exact ⟨admitted, texts, rfl, given⟩

namespace NestedLists

def environment : Environment := ⟨0, 0, ⟨.asymmetric, 64, some 3⟩, none, .standard⟩

def frame : Frame := ⟨⟨0, environment, .nodes [], ⟨0, [], none, []⟩⟩, {}⟩

/-- A block that iterates over its own context. -/
def options : HelperOptions where
  block := some ⟨1, [.call "each" (.this none)
    (.mk false (some (.plain [.escaped (.this none)] none)) none none false)], none, []⟩
  inverse := frame.template.noop
  data := none

def store : Store := Store.empty.registerHelper 0 "each" ⟨.builtin .each, none⟩

def items : List Value :=
  [.array [.string "é", .string "b"], .array [.string "c"], .array [.string "d"]]

theorem exceeds : (Builtin.each.call (Task.run {} 3) frame .null (.array items) options store).1 =
    .failed (.tooLong 4 3) := by decide +kernel

theorem nested : (options.renderBlock (Task.run {} 3) frame (.array [.string "é", .string "b"])
    store).1 = .done "éb" := by decide +kernel

end NestedLists

/-- Two letters of three bytes are short enough, in the iteration inside and in
the one around it. One more byte is too much, and the last item is not run. -/
theorem Builtin.iterates_in_order_nested :
    (NestedLists.options.renderBlock (Task.run {} 3) NestedLists.frame
        (.array [.string "é", .string "b"]) NestedLists.store).1 = .done "éb" ∧
    (Builtin.each.call (Task.run {} 3) NestedLists.frame .null (.array NestedLists.items)
        NestedLists.options NestedLists.store).1 = .failed (.tooLong 4 3) ∧
    NestedLists.frame.Iterates
      (NestedLists.options.renderBlock (Task.run {} 3) NestedLists.frame) NestedLists.items
      NestedLists.store
      (Builtin.each.call (Task.run {} 3) NestedLists.frame .null (.array NestedLists.items)
        NestedLists.options NestedLists.store) := by
  have hitems : NestedLists.items ≠ [] := List.cons_ne_nil _ _
  obtain ⟨hends, _⟩ := Builtin.iterates_in_order (.inl rfl) hitems (Task.run {} 3)
    NestedLists.frame .null NestedLists.options NestedLists.store
  exact ⟨NestedLists.nested, NestedLists.exceeds, (hends _).mp rfl⟩

end Stencil
