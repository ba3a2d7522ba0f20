import Stencil.Proofs.ChainLinks
import Stencil.Proofs.Escaping
import Stencil.Proofs.NormalForms

/-!
One value on a page. A page shows the JSON form of a field, turned into text and
escaped; a program resolves the field and escapes it as a value. The marks of
safe text are lost on the way to the page, values that count as false are shown
there, and arrays have another text. Main statements: what a source of one name
shows, and which values it shows as a program does.
-/

namespace Stencil

theorem Number.text_ne_empty {n : Number} (h : n.isZero = true) : n.text ≠ "" := by
  cases n with
  | integer value bounds =>
      obtain rfl : value = 0 := by simpa [isZero] using h
      show Text.signedNumeral 0 ≠ ""
      decide
  | float value =>
      obtain ⟨negative, significand, exponent, canonical⟩ := value
      obtain rfl : significand = 0 := by simpa [isZero, Binary64.isZero] using h
      have htext : (Number.float ⟨negative, 0, exponent, canonical⟩).text =
          (if negative then "-" else "") ++ (Decimal.mk 0 0).text Binary64.positional := rfl
      rw [htext]
      cases negative <;> decide

namespace Value

/-- The value that the key of an object leads to, in JSON form. -/
theorem field?_toJsonFields (key : String) (fields : List (String × Value)) :
    field? key (toJsonFields fields).1 = (field? key fields).map fun v => v.toJson.1 := by
  induction fields with
  | nil => rfl
  | cons entry rest ih =>
      obtain ⟨name, v⟩ := entry
      by_cases hname : name = key
      · simp [toJsonFields, field?, hname, toJson]
      · simp [toJsonFields, field?, hname, ih]

/-- Pages show the value as programs do. Of an array the two texts differ unless
there are deferred values in it. -/
def ShownAlike : Value → Prop
  | .null | .string _ | .object _ => True
  | .bool b => b = true
  | .number n => n.isZero = false
  | .safe text => ∀ c ∈ text.toList, Text.entity? c = none
  | .array items => (Value.array items).toJson.1.shown = (Value.array items).text
  | .lazy _ _ | .endless _ => False

/-- The text of a page is the escaped value exactly where the value is shown
alike. -/
theorem escapeHtml_shown_iff {v : Value} (h : ¬ v.isLazy) :
    Text.escapeHtml v.toJson.1.shown = v.escape ↔ v.ShownAlike := by
  have hempty : Text.escapeHtml "" = "" := rfl
  cases v with
  | null => exact iff_of_true rfl trivial
  | bool b =>
      cases b
      · exact iff_of_false (by decide) Bool.false_ne_true
      · exact iff_of_true rfl rfl
  | number n =>
      cases hzero : n.isZero with
      | false => simp [ShownAlike, escape, isTruthy, hzero, toJson, toJsonWithin, Json.shown, text]
      | true =>
          have htext : Text.escapeHtml n.text ≠ "" := fun heq =>
            Number.text_ne_empty hzero (Text.escapeHtml_injective (heq.trans hempty.symm))
          simp [ShownAlike, escape, isTruthy, hzero, toJson, toJsonWithin, Json.shown, htext]
  | string s =>
      by_cases hs : s = ""
      · subst hs
        exact iff_of_true rfl trivial
      · simp [ShownAlike, escape, isTruthy, hs, toJson, toJsonWithin, Json.shown, text]
  | safe s => exact Text.escapeHtml_eq_self_iff s
  | array items =>
      show Text.escapeHtml _ = Text.escapeHtml _ ↔ _
      exact Text.escapeHtml_injective.eq_iff
  | object fields => exact iff_of_true rfl trivial
  | lazy | endless => exact absurd rfl h

mutual
/-- A plain value has no longer text than its JSON form has on a page. -/
theorem length_text_le (budget : Nat) :
    ∀ v : Value, v.IsPlain → v.text.length ≤ (v.toJsonWithin budget).1.shown.length
  | .null, _ => Nat.le_refl _
  | .bool _, _ => Nat.le_refl _
  | .number _, _ => Nat.le_refl _
  | .string _, _ => Nat.le_refl _
  | .safe _, h => h.elim
  | .lazy _ _, h => h.elim
  | .endless _, h => h.elim
  | .array items, h => by
      have hitems := length_texts_le items h
      simp only [text, toJsonWithin, Json.shown, String.length_append]
      omega
  | .object _, _ => Nat.le_refl _
termination_by structural v => v

theorem length_texts_le :
    ∀ items : List Value, ArePlain items →
      (String.intercalate "," (texts items)).length ≤
        (String.intercalate ", " (Json.shownItems (toJsonItems items).1)).length
  | [], _ => Nat.le_refl _
  | [v], h => by
      have hv := length_text_le maxLazyDepth v h.1
      simpa [texts, toJsonItems, Json.shownItems] using hv
  | v :: w :: rest, h => by
      have hv := length_text_le maxLazyDepth v h.1
      have hrest := length_texts_le (w :: rest) h.2
      simp only [texts, toJsonItems, Json.shownItems, String.intercalate_cons_cons,
        String.length_append] at hrest ⊢
      have hseparators : ",".length ≤ ", ".length := by decide
      omega
termination_by structural items => items
end

/-- A plain array stands in brackets on a page, and in none where a program
shows it. -/
theorem array_not_shownAlike {items : List Value} (h : ArePlain items) :
    ¬ (Value.array items).ShownAlike := by
  intro hsame
  have hlength := congrArg String.length hsame
  have hitems := length_texts_le items h
  simp only [toJson, toJsonWithin, Json.shown, text, String.length_append] at hlength
  have hbrackets : "[".length = 1 ∧ "]".length = 1 := by decide
  omega

end Value

namespace Page

variable {page : Page} {store : Store}

theorem write_run (hindent : page.indent = "") (text : String) (store : Store) :
    ∃ pen, page.write text store = (.done text, { store with pen }) := by
  have htext : (store.pen.write page.indent text).1 = text := by
    rw [hindent]
    unfold Pen.write
    split <;> rfl
  exact ⟨(store.pen.write page.indent text).2,
    congrArg (fun shown =>
      (Outcome.done shown, { store with pen := (store.pen.write page.indent text).2 })) htext⟩

/-- A key on a page leads to the JSON form of what it leads to in the context,
and to null where that has no such key. -/
theorem find_field (frame : Frame) (elements : List Source.Element)
    (fields : List (String × Value)) (key : String) :
    ∃ found, (Page.start frame elements (Value.object fields).toJson.1).find ⟨key, [.key key]⟩ =
        some found ∧
      found.value = ((field? key fields).getD .null).toJson.1 := by
  have hfind : ∀ data, (Page.start frame elements data).find ⟨key, [.key key]⟩ =
      (Page.start frame elements data).inData [key] := fun _ => rfl
  have hfield := Value.field?_toJsonFields key fields
  rw [hfind]
  unfold inData
  cases hfound : field? key fields with
  | none =>
      rw [hfound] at hfield
      refine ⟨.missing, ?_, rfl⟩
      simp [start, Value.toJson, Value.toJsonWithin, Json.follow, Json.step, hfield]
  | some v =>
      rw [hfound] at hfield
      refine ⟨.place v.toJson.1 [key], ?_, rfl⟩
      simp [start, Value.toJson, Value.toJsonWithin, Json.follow, Json.step, hfield]

/-- A name that calls nothing shows what it leads to. -/
theorem name_run (worker : Worker) {path : Source.Path} {found : Found}
    (hfree : callee? store page.frame path.written = none) (hfind : page.find path = some found)
    (hindent : page.indent = "") :
    ∃ after, page.renderExpression {} worker false (.mk (.path path) [] []) store =
      (.done (Text.escapeHtml found.value.shown), after) := by
  have hoperand : page.operand {} worker (.path path) = pure found := by
    simp only [operand, hfind]
    rfl
  simp only [renderExpression, headName, Source.Call.head, Source.Call.isBare,
    Source.Call.arguments, Source.Call.named, Render.bind_run, Render.look, Render.pure_run,
    hfree, hoperand, List.isEmpty, Option.isNone, Bool.and_self, if_true]
  cases found with
  | missing => exact ⟨store, rfl⟩
  | literal | place | derived =>
      obtain ⟨pen, hwrite⟩ := write_run hindent (display false _) store
      exact ⟨_, hwrite⟩

end Page

/-- The template of one element on a page gives what that element gives, if
every partial has a stand-in and not too many of them are open. The element
finds the same helpers and partials. -/
theorem Template.element_run (frame : Frame) {element : Source.Element} {store : Store}
    (context : Value) (hspec : frame.template.spec = .page [element])
    (hbridged : ∀ name ∈ Page.partialNames store frame, (Page.standIn? name).isSome)
    (hdepth : frame.options.depth ≤ frame.template.environment.settings.maxPartialDepth) :
    ∃ begun : Store, Page.callee? begun frame = Page.callee? store frame ∧
      begun.entry? frame = store.entry? frame ∧
      ∀ levels,
        (Task.run {} (levels + 2) (.template frame.template context frame.options) store).1 =
          ((Page.start frame [element] context.toJson.1).renderElement {} (Task.run {} levels)
            element begun).1 := by
  generalize hentered : (store.note (.rendering frame.options.depth)).enter frame = entered
  have hstandIns : ∀ name ∈ Page.partialNames entered frame, (Page.standIn? name).isSome := by
    subst hentered
    exact hbridged
  obtain ⟨bridged, tally, hpage⟩ := Page.render_run [element] context hstandIns
  refine ⟨{ (entered.note bridged).tally tally with pen := {} }, ?_, ?_, fun levels => ?_⟩
  · subst hentered
    rfl
  · subst hentered
    rfl
  · have hrender : (Task.run {} (levels + 2)
        (.template frame.template context frame.options) store).1 =
          (Page.render (Task.run {} (levels + 1)) frame [element] context entered).1 := by
      show (Template.render _ _ _ _ store).1 = _
      unfold Template.render
      rw [if_neg (Nat.not_lt.mpr hdepth), ← hentered]
      show ((Frame.render frame _ _) _).1 = _
      unfold Frame.render
      rw [hspec]
    have hstep : Task.run {} (levels + 1)
        (.page (.start frame [element] context.toJson.1) [element]) =
          (Page.start frame [element] context.toJson.1).renderElement {} (Task.run {} levels)
            element := Render.concat_single _ _
    rw [hrender, hpage, hstep]
    rfl

/-- A source that is a name in braces shows what is in the context under that
name: the escaped text of its JSON form, and nothing where there is no such
field. The name must not call a helper, and it must not start as the alternative
of a block. That text is the field resolved and escaped as a value, as a program
shows it, exactly for values that are shown alike; arrays of plain values are
never among them. -/
theorem Template.source_shows_field (store : Store) (template : Template)
    (options : RenderOptions) (fields : List (String × Value)) (name : String)
    (hname : Source.IsIdentifier name) (helse : ¬ "else".toList <+: name.toList)
    (hthis : name ≠ "this") (hfree : Page.callee? store ⟨template, options⟩ name = none)
    (hbridged : ∀ other ∈ Page.partialNames store ⟨template, options⟩,
      (Page.standIn? other).isSome)
    (hdepth : options.depth ≤ template.environment.settings.maxPartialDepth) :
    ∃ spec, Compiler.pages.compile ("\x7b\x7b" ++ name ++ "\x7d\x7d") = .ok spec ∧
      ∀ field, field = (field? name fields).getD .null →
        (∀ levels, (Task.run {} (levels + 2)
            (.template { template with spec } (.object fields) options) store).1 =
          .done (Text.escapeHtml field.toJson.1.shown)) ∧
        (Text.escapeHtml field.toJson.1.shown = field.resolve.value.escape ↔
          field.resolve.value.ShownAlike) ∧
        ∀ items, field.resolve.value = .array items → Value.ArePlain items →
          ¬ field.resolve.value.ShownAlike := by
  have hread := Source.read_name hname helse hthis
  have hcompile : Compiler.pages.compile ("\x7b\x7b" ++ name ++ "\x7d\x7d") =
      .ok (.page [.expression false (.mk (.path ⟨name, [.key name]⟩) [] [])]) := by
    simp only [Compiler.compile, Compiler.pages, hread]
  refine ⟨_, hcompile, ?_⟩
  rintro field rfl
  refine ⟨fun levels => ?_, ?_, ?_⟩
  · obtain ⟨begun, hcallee, -, hrun⟩ := Template.element_run
      ⟨{ template with spec := _ }, options⟩ (.object fields) rfl hbridged hdepth
    obtain ⟨found, hfind, hvalue⟩ := Page.find_field _ _ fields name
    obtain ⟨after, hshown⟩ := Page.name_run (Task.run {} levels)
      ((congrFun hcallee name).trans hfree) hfind rfl
    rw [hrun levels, ← hvalue]
    exact congrArg Prod.fst hshown
  · rw [← Value.toJson_resolve]
    exact Value.escapeHtml_shown_iff (Value.resolveWithin_not_isLazy _ _)
  · intro items hitems hplain
    rw [hitems]
    exact Value.array_not_shownAlike hplain

namespace Showing

def template : Template := ⟨0, ⟨0, 0, {}, some .pages, .standard⟩, .nodes [], ⟨0, [], none, []⟩⟩

/-- What a source that names the only field of the context shows. -/
def shown (spec : Spec) (field : Value) : Outcome String :=
  (Task.run {} 2 (.template { template with spec } (.object [("x", field)]) {}) Store.empty).1

end Showing

theorem Template.source_shows_field_deferred :
    ∃ spec, Compiler.pages.compile ("\x7b\x7b" ++ "x" ++ "\x7d\x7d") = .ok spec ∧
      Showing.shown spec (.lazy 0 (.string "<b>")) = .done "&lt;b&gt;" := by
  obtain ⟨spec, hcompile, hshows⟩ := Template.source_shows_field Store.empty Showing.template {}
    [("x", .lazy 0 (.string "<b>"))] "x" (by decide) (by decide) (by decide) (by decide +kernel)
    (by decide +kernel) (by decide)
  exact ⟨spec, hcompile, (hshows _ rfl).1 0⟩

/-- A source escapes safe text, and shows values that count as false and arrays
otherwise than they are escaped as values. -/
theorem Template.source_shows_field_otherwise :
    ∃ spec, Compiler.pages.compile ("\x7b\x7b" ++ "x" ++ "\x7d\x7d") = .ok spec ∧
      (Showing.shown spec (.safe "<b>") = .done "&lt;b&gt;" ∧
        (Value.safe "<b>").resolve.value.escape = "<b>") ∧
      (Showing.shown spec (.bool false) = .done "false" ∧
        (Value.bool false).resolve.value.escape = "") ∧
      (Showing.shown spec (.number (.ofNat 0)) = .done "0" ∧
        (Value.number (.ofNat 0)).resolve.value.escape = "") ∧
      (Showing.shown spec (.array [.string "a", .string "b"]) = .done "[a, b]" ∧
        (Value.array [.string "a", .string "b"]).resolve.value.escape = "a,b") := by
  have hread := Source.read_name (by decide : Source.IsIdentifier "x") (by decide) (by decide)
  have hcompile : Compiler.pages.compile ("\x7b\x7b" ++ "x" ++ "\x7d\x7d") =
      .ok (.page [.expression false (.mk (.path ⟨"x", [.key "x"]⟩) [] [])]) := by
    simp only [Compiler.compile, Compiler.pages, hread]
  refine ⟨_, hcompile, ?_⟩
  decide +kernel

end Stencil
