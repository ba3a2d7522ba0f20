import Mathlib.Data.List.Infix
import Mathlib.Logic.Function.Basic
import Stencil.Text.Basic
import Stencil.Value

/-!
Escaped text. No entity begins another one, so what was escaped is read back by
replacing entities from left to right, whether or not there were entities in it
before. Of the special characters an escaped text holds nothing but ampersands,
and each of them begins an entity. Main statement: what this means for values.
-/

namespace Stencil

namespace Text

/-- The special characters and their entities. -/
def entities : List (Char × String) :=
  [('&', "&amp;"), ('<', "&lt;"), ('>', "&gt;"), ('"', "&quot;"), ('\'', "&#x27;"),
    ('/', "&#x2F;"), ('\x60', "&#x60;")]

theorem entity?_eq_some_iff {c : Char} {entity : String} :
    entity? c = some entity ↔ (c, entity) ∈ entities := by
  constructor
  · intro h
    unfold entity? at h
    split at h <;> simp_all [entities]
  · have hall : ∀ entry ∈ entities, entity? entry.1 = some entry.2 := by decide
    exact hall (c, entity)

/-- An entity is an ampersand and then characters that stand for themselves. -/
theorem entity?_start {c : Char} {entity : String} (h : entity? c = some entity) :
    ∃ rest, entity.toList = '&' :: rest ∧ rest ≠ [] ∧ ∀ d ∈ rest, entity? d = none := by
  have hall : ∀ entry ∈ entities, entry.2.toList = '&' :: entry.2.toList.tail ∧
      entry.2.toList.tail ≠ [] ∧
      (entry.2.toList.tail.all fun d => (entity? d).isNone) = true := by decide +kernel
  obtain ⟨hstart, hrest, hplain⟩ := hall (c, entity) (entity?_eq_some_iff.mp h)
  exact ⟨_, hstart, hrest, fun d hd =>
    Option.isNone_iff_eq_none.mp (List.all_eq_true.mp hplain d hd)⟩

/-- No entity begins another one. -/
theorem entities_prefix_free :
    ∀ entry ∈ entities, ∀ other ∈ entities,
      entry.2.toList <+: other.2.toList → entry = other := by decide +kernel

theorem entity_append_inj {c d : Char} {entity other : String} {rest after : List Char}
    (hc : entity? c = some entity) (hd : entity? d = some other)
    (h : entity.toList ++ rest = other.toList ++ after) : c = d ∧ rest = after := by
  have hentity := entity?_eq_some_iff.mp hc
  have hother := entity?_eq_some_iff.mp hd
  have hsame : (c, entity) = (d, other) := by
    rcases List.prefix_or_prefix_of_prefix (List.prefix_append entity.toList rest)
      (h ▸ List.prefix_append other.toList after) with hfirst | hsecond
    · exact entities_prefix_free _ hentity _ hother hfirst
    · exact (entities_prefix_free _ hother _ hentity hsecond).symm
  obtain ⟨rfl, rfl⟩ := Prod.mk.inj hsame
  exact ⟨rfl, List.append_cancel_left h⟩

theorem escapeChar_none {c : Char} (h : entity? c = none) : escapeChar c = [c] := by
  simp only [escapeChar, h]

theorem escapeChar_some {c : Char} {entity : String} (h : entity? c = some entity) :
    escapeChar c = entity.toList := by
  simp only [escapeChar, h]

/-- The character whose entity a text begins with, and what follows the entity. -/
def referred? (text : List Char) : Option (Char × List Char) :=
  entities.findSome? fun entry => (entry.2.toList.isPrefixOf? text).map (Prod.mk entry.1)

theorem referred?_eq_some {text rest : List Char} {c : Char}
    (h : referred? text = some (c, rest)) :
    ∃ entity, entity? c = some entity ∧ entity.toList ++ rest = text := by
  obtain ⟨entry, member, hentry⟩ := List.exists_of_findSome?_eq_some h
  obtain ⟨after, hafter, heq⟩ := Option.map_eq_some_iff.mp hentry
  obtain ⟨rfl, rfl⟩ := Prod.mk.inj heq
  exact ⟨entry.2, entity?_eq_some_iff.mpr member,
    List.isPrefixOf?_eq_some_iff_append_eq.mp hafter⟩

theorem referred?_entity {c : Char} {entity : String} (h : entity? c = some entity)
    (rest : List Char) : referred? (entity.toList ++ rest) = some (c, rest) := by
  have hfound : (referred? (entity.toList ++ rest)).isSome := by
    rw [referred?, List.findSome?_isSome_iff]
    refine ⟨(c, entity), entity?_eq_some_iff.mp h, ?_⟩
    rw [List.isPrefixOf?_eq_some_iff_append_eq.mpr rfl]
    rfl
  obtain ⟨⟨d, after⟩, hreferred⟩ := Option.isSome_iff_exists.mp hfound
  obtain ⟨other, hother, happend⟩ := referred?_eq_some hreferred
  obtain ⟨rfl, rfl⟩ := entity_append_inj hother h happend
  exact hreferred

theorem referred?_plain {c : Char} (h : entity? c = none) (rest : List Char) :
    referred? (c :: rest) = none := by
  by_contra hsome
  obtain ⟨⟨d, after⟩, hreferred⟩ := Option.ne_none_iff_exists'.mp hsome
  obtain ⟨entity, hentity, happend⟩ := referred?_eq_some hreferred
  obtain ⟨tail, hstart, _⟩ := entity?_start hentity
  rw [hstart] at happend
  obtain ⟨rfl, _⟩ := List.cons.inj happend
  simp [entity?] at h

theorem length_of_referred? {text rest : List Char} {c : Char}
    (h : referred? text = some (c, rest)) : rest.length < text.length := by
  obtain ⟨entity, hentity, rfl⟩ := referred?_eq_some h
  obtain ⟨tail, hstart, _⟩ := entity?_start hentity
  rw [hstart, List.length_append, List.length_cons]
  omega

/-- Replaces entities by the characters that they stand for, from left to right. -/
def unescape (text : List Char) : List Char :=
  match text with
  | [] => []
  | c :: rest =>
    match h : referred? (c :: rest) with
    | some (special, after) =>
      have := length_of_referred? h
      special :: unescape after
    | none => c :: unescape rest
termination_by text.length
decreasing_by
  · assumption
  · exact Nat.lt_succ_self rest.length

def unescapeHtml (text : String) : String := String.ofList (unescape text.toList)

theorem unescape_of_some {text rest : List Char} {c : Char}
    (h : referred? text = some (c, rest)) : unescape text = c :: unescape rest := by
  cases text with
  | nil => exact absurd (length_of_referred? h) (Nat.not_lt_zero _)
  | cons d tail =>
      rw [unescape]
      split
      case h_1 hsome =>
        obtain ⟨rfl, rfl⟩ := Prod.mk.inj (Option.some.inj (hsome.symm.trans h))
        rfl
      case h_2 hnone => exact absurd (hnone.symm.trans h) nofun

theorem unescape_of_none {c : Char} {rest : List Char} (h : referred? (c :: rest) = none) :
    unescape (c :: rest) = c :: unescape rest := by
  rw [unescape]
  split
  case h_1 hsome => exact absurd (h.symm.trans hsome) nofun
  case h_2 => rfl

/-- What stands for a character is read as that character. -/
theorem unescape_escapeChar (c : Char) (rest : List Char) :
    unescape (escapeChar c ++ rest) = c :: unescape rest := by
  cases hc : entity? c with
  | none =>
      rw [escapeChar_none hc]
      exact unescape_of_none (referred?_plain hc rest)
  | some entity =>
      rw [escapeChar_some hc]
      exact unescape_of_some (referred?_entity hc rest)

theorem unescape_flatMap (cs : List Char) : unescape (cs.flatMap escapeChar) = cs := by
  induction cs with
  | nil => rw [List.flatMap_nil, unescape]
  | cons c cs ih => rw [List.flatMap_cons, unescape_escapeChar, ih]

/-- Escaping is undone by reading the entities. -/
theorem unescapeHtml_escapeHtml : Function.LeftInverse unescapeHtml escapeHtml := by
  intro text
  rw [unescapeHtml, escapeHtml, String.toList_ofList, unescape_flatMap, String.ofList_toList]

/-- Texts that are escaped alike are the same text. -/
theorem escapeHtml_injective : Function.Injective escapeHtml :=
  unescapeHtml_escapeHtml.injective

theorem escapeHtml_append (s t : String) :
    escapeHtml (s ++ t) = escapeHtml s ++ escapeHtml t := by
  rw [escapeHtml, String.toList_append, List.flatMap_append, String.ofList_append]
  rfl

theorem length_escapeChar (c : Char) :
    1 ≤ (escapeChar c).length ∧ (entity? c ≠ none → 1 < (escapeChar c).length) := by
  cases hc : entity? c with
  | none => simp [escapeChar_none hc]
  | some entity =>
      obtain ⟨rest, hstart, hrest, _⟩ := entity?_start hc
      have := List.length_pos_of_ne_nil hrest
      rw [escapeChar_some hc, hstart, List.length_cons]
      omega

theorem length_flatMap_escapeChar (cs : List Char) :
    cs.length ≤ (cs.flatMap escapeChar).length := by
  induction cs with
  | nil => simp
  | cons c cs ih =>
      have hc := (length_escapeChar c).1
      simp only [List.flatMap_cons, List.length_append, List.length_cons]
      omega

/-- Escaping leaves a text alone exactly if no character of it has an entity. -/
theorem escapeHtml_eq_self_iff (s : String) :
    escapeHtml s = s ↔ ∀ c ∈ s.toList, entity? c = none := by
  have hlist : escapeHtml s = s ↔ s.toList.flatMap escapeChar = s.toList := by
    rw [escapeHtml, ← String.toList_inj, String.toList_ofList]
  rw [hlist]
  generalize s.toList = cs
  induction cs with
  | nil => simp
  | cons c cs ih =>
      by_cases hc : entity? c = none
      · simpa [escapeChar_none hc, hc] using ih
      · refine iff_of_false (fun h => ?_) fun h => hc (h c List.mem_cons_self)
        -- The entity takes more places than the character.
        have hlength := congrArg List.length h
        have hrest := length_flatMap_escapeChar cs
        have hentity := (length_escapeChar c).2 hc
        simp only [List.flatMap_cons, List.length_append, List.length_cons] at hlength
        omega

/-- Text that holds no markup: of the special characters there is only the
ampersand, and only where it begins an entity. -/
structure Inert (text : String) : Prop where
  unmarked : ∀ c ∈ text.toList, c ∉ ['<', '>', '"', '\'', '/', '\x60']
  referring : ∀ before after, text.toList = before ++ '&' :: after →
    ∃ entry ∈ entities, entry.2.toList <+: '&' :: after

theorem inert_empty : Inert "" := by
  constructor <;> simp

theorem special_of_mem_flatMap {c : Char} {cs : List Char} (h : c ∈ cs.flatMap escapeChar)
    (hspecial : entity? c ≠ none) : c = '&' := by
  obtain ⟨d, _, hd⟩ := List.mem_flatMap.mp h
  cases hentity : entity? d with
  | none =>
      rw [escapeChar_none hentity, List.mem_singleton] at hd
      exact absurd (hd ▸ hentity) hspecial
  | some entity =>
      obtain ⟨rest, hstart, _, hplain⟩ := entity?_start hentity
      rw [escapeChar_some hentity, hstart] at hd
      rcases List.mem_cons.mp hd with hd | hd
      · exact hd
      · exact absurd (hplain c hd) hspecial

/-- What stands for a character has an ampersand at its start or none at all. -/
theorem entity_of_ampersand {c : Char} {before after : List Char}
    (h : escapeChar c = before ++ '&' :: after) :
    ∃ entity, entity? c = some entity ∧ entity.toList = '&' :: after := by
  cases hc : entity? c with
  | none =>
      rw [escapeChar_none hc] at h
      have hmember : '&' ∈ [c] := by simp [h]
      rw [← List.mem_singleton.mp hmember] at hc
      simp [entity?] at hc
  | some entity =>
      obtain ⟨rest, hstart, _, hplain⟩ := entity?_start hc
      rw [escapeChar_some hc] at h
      cases before with
      | nil => exact ⟨entity, rfl, h⟩
      | cons first before =>
          rw [hstart] at h
          obtain ⟨_, hrest⟩ := List.cons.inj h
          have hnone := hplain '&' (by simp [hrest])
          simp [entity?] at hnone

/-- An ampersand in an escaped text begins the entity of a character of the
text. -/
theorem entity_at_ampersand {cs before after : List Char}
    (h : cs.flatMap escapeChar = before ++ '&' :: after) :
    ∃ c entity, entity? c = some entity ∧ entity.toList <+: '&' :: after := by
  induction cs generalizing before with
  | nil => simp at h
  | cons c cs ih =>
      rw [List.flatMap_cons, List.append_eq_append_iff] at h
      -- The ampersand stands behind what was written for `c`, or in it.
      rcases h with ⟨between, _, hrest⟩ | ⟨behind, hchar, hrest⟩
      · exact ih hrest
      · cases behind with
        | nil => exact @ih [] hrest.symm
        | cons d behind =>
            rw [List.cons_append] at hrest
            obtain ⟨rfl, rfl⟩ := List.cons.inj hrest
            obtain ⟨entity, hentity, hstart⟩ := entity_of_ampersand hchar
            exact ⟨c, entity, hentity, hstart ▸ List.prefix_append _ _⟩

theorem inert_escapeHtml (text : String) : Inert (escapeHtml text) := by
  have hlist : (escapeHtml text).toList = text.toList.flatMap escapeChar := String.toList_ofList
  constructor
  · intro c member hmarkup
    have hall : (['<', '>', '"', '\'', '/', '\x60'].all fun d =>
        (entity? d).isSome && d != '&') = true := by decide
    have hspecial := List.all_eq_true.mp hall c hmarkup
    rw [Bool.and_eq_true, Option.isSome_iff_ne_none, bne_iff_ne] at hspecial
    exact hspecial.2 (special_of_mem_flatMap (hlist ▸ member) hspecial.1)
  · intro before after h
    obtain ⟨c, entity, hentity, hprefix⟩ := entity_at_ampersand (hlist ▸ h)
    exact ⟨(c, entity), entity?_eq_some_iff.mp hentity, hprefix⟩

end Text

namespace Value

theorem escape_of_ne_safe {v : Value} (h : ∀ text, v ≠ .safe text) :
    v.escape = if v.isTruthy then Text.escapeHtml v.text else "" := by
  cases v with
  | safe text => exact absurd rfl (h text)
  | _ => rfl

theorem escape_eq_empty_iff (v : Value) : v.escape = "" ↔ v.isTruthy = false ∨ v.text = "" := by
  by_cases hsafe : ∃ text, v = .safe text
  · obtain ⟨text, rfl⟩ := hsafe
    simp [escape, isTruthy, Value.text]
  · have hempty : Text.escapeHtml v.text = "" ↔ v.text = "" :=
      Text.escapeHtml_injective.eq_iff' rfl
    rw [escape_of_ne_safe (not_exists.mp hsafe)]
    split
    case isTrue htruthy => simp [htruthy, hempty]
    case isFalse htruthy => simp [htruthy]

/-- Escaping lets no markup through and loses nothing. An escaped text is inert,
and reading its entities from left to right gives the text back, whatever it held
before; texts are escaped piece by piece. A value that is not itself safe text
shows inert text, also where safe text stands inside it: what is read back is the
text of the value, unless nothing is shown because the value is falsy. Safe text
is shown as it stands. Nothing is shown exactly for falsy values and for those
without text. -/
theorem escape_reads_back :
    (∀ text : String, Text.Inert (Text.escapeHtml text) ∧
      Text.unescapeHtml (Text.escapeHtml text) = text) ∧
    (∀ s t : String, Text.escapeHtml (s ++ t) = Text.escapeHtml s ++ Text.escapeHtml t) ∧
    Function.Injective Text.escapeHtml ∧
    (∀ v : Value, (∀ text, v ≠ .safe text) → Text.Inert v.escape ∧
      if v.isTruthy then Text.unescapeHtml v.escape = v.text else v.escape = "") ∧
    (∀ text : String, (Value.safe text).escape = text) ∧
    ∀ v : Value, v.escape = "" ↔ v.isTruthy = false ∨ v.text = "" := by
  refine ⟨fun text => ⟨Text.inert_escapeHtml text, Text.unescapeHtml_escapeHtml text⟩,
    Text.escapeHtml_append, Text.escapeHtml_injective, fun v hsafe => ?_, fun _ => rfl,
    escape_eq_empty_iff⟩
  rw [escape_of_ne_safe hsafe]
  split
  · exact ⟨Text.inert_escapeHtml v.text, Text.unescapeHtml_escapeHtml v.text⟩
  · exact ⟨Text.inert_empty, rfl⟩

/-- Safe text inside an array is escaped, entities and all, and read back. -/
theorem escape_reads_back_nested :
    let v := Value.array [.safe "<b>&amp;", .array [.string "/", .bool false]]
    v.escape = "&lt;b&gt;&amp;amp;,&#x2F;,false" ∧ Text.Inert v.escape ∧
      Text.unescapeHtml v.escape = "<b>&amp;,/,false" := by
  intro v
  obtain ⟨hinert, hread⟩ := escape_reads_back.2.2.2.1 v nofun
  exact ⟨by decide +kernel, hinert, hread⟩

end Value

end Stencil
