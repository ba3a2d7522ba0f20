import Mathlib.Data.List.Basic
import Stencil.Proofs.Reading.Combinators
import Stencil.Source.Tag

/-!
Text between double quotes. A string in a source is read as one of JSON: a
backslash in it starts an escape, and control characters have no place in it.
Main statements: which text is read and as what, and that a text is read as
itself only if there is neither of them in it.
-/

namespace Stencil

open Reader

namespace Json

variable {text content : List Char}

theorem fourHexDigits_local : Local fourHexDigits := by
  unfold fourHexDigits
  refine .bind (.oneOf _) fun a => .bind (.oneOf _) fun b => ?_
  exact .bind (.oneOf _) fun c => .bind (.oneOf _) fun d => .pure _

theorem escapedChar_local : Local escapedChar := by
  unfold escapedChar
  refine .bind (.oneOf _) fun mark => ?_
  split
  case h_9 =>
    refine .bind fourHexDigits_local fun first => ?_
    split
    · refine .bind (.char _) fun _ => .bind (.char _) fun _ => ?_
      refine .bind fourHexDigits_local fun second => ?_
      split
      · exact .ofOption _
      · exact .failure
    · exact .ofOption _
  case h_10 => exact .failure
  all_goals exact .pure _

theorem stringChar_local : Local stringChar := by
  unfold stringChar
  refine .bind (.oneOf _) fun c => ?_
  split
  · exact escapedChar_local
  · exact .pure _

/-- Between double quotes the text is read as the content. -/
def Spells (text content : List Char) : Prop := Takes stringChar text content

theorem stringChar_eq_some_iff {c d : Char} {rest : List Char} :
    stringChar (c :: text) = some (d, rest) ↔ (c ≠ '"' ∧ 0x20 ≤ c.toNat) ∧
      (if c = '\\' then escapedChar else pure c) text = some (d, rest) := by
  unfold stringChar
  rw [bind_eq_some_iff]
  constructor
  · rintro ⟨first, middle, hone, hnext⟩
    obtain ⟨heq, haccepts⟩ := oneOf_eq_some_iff.mp hone
    obtain ⟨rfl, rfl⟩ := List.cons.inj heq
    exact ⟨by simpa using haccepts, hnext⟩
  · rintro ⟨hplain, hnext⟩
    exact ⟨c, text, oneOf_eq_some_iff.mpr ⟨rfl, by simpa using hplain⟩, hnext⟩

/-- What a piece of such a text is: a character that stands for itself, or an
escape. -/
theorem stringChar_cases {c d : Char} {piece : List Char}
    (h : ∀ after, stringChar (c :: piece ++ after) = some (d, after)) :
    (piece = [] ∧ d = c ∧ c ≠ '"' ∧ c ≠ '\\' ∧ 0x20 ≤ c.toNat) ∨
      c = '\\' ∧ ∃ mark body, piece = mark :: body ∧
        ∀ after, escapedChar (mark :: body ++ after) = some (d, after) := by
  have hrest := fun after => (stringChar_eq_some_iff.mp (h after)).2
  obtain ⟨hquote, hcontrol⟩ := (stringChar_eq_some_iff.mp (h [])).1
  by_cases hc : c = '\\'
  · right
    simp only [if_pos hc] at hrest
    refine ⟨hc, ?_⟩
    cases piece with
    | nil => exact absurd (hrest []) nofun
    | cons mark body => exact ⟨mark, body, rfl, hrest⟩
  · left
    simp only [if_neg hc] at hrest
    obtain ⟨hchar, hpiece⟩ := Prod.mk.inj (Option.some.inj (hrest []))
    exact ⟨by simpa using hpiece, hchar.symm, hquote, hc, hcontrol⟩

theorem Spells.of_plain (h : ∀ c ∈ text, c ≠ '"' ∧ c ≠ '\\' ∧ 0x20 ≤ c.toNat) :
    Spells text text := by
  have hword : ∀ c ∈ text, ∀ after, stringChar (c :: after) = some (id c, after) := by
    intro c member after
    obtain ⟨hquote, hslash, hcontrol⟩ := h c member
    refine stringChar_eq_some_iff.mpr ⟨⟨hquote, hcontrol⟩, ?_⟩
    rw [if_neg hslash]
    rfl
  have htakes := Takes.word id hword
  rw [List.map_id] at htakes
  exact htakes

/-- An escape is longer than the character that it stands for. -/
theorem Spells.length_le (h : Spells text content) :
    content.length ≤ text.length ∧ ('\\' ∈ text → content.length < text.length) := by
  induction h with
  | nil => simp
  | cons first _ ih =>
      obtain ⟨hlength, hlonger⟩ := ih
      rcases stringChar_cases first with ⟨rfl, -, -, hslash, -⟩ | ⟨-, mark, body, rfl, -⟩
      · refine ⟨by simpa using hlength, fun member => ?_⟩
        simp only [List.cons_append, List.nil_append, List.mem_cons, Ne.symm hslash,
          false_or] at member
        simpa using hlonger member
      · simp only [List.length_cons, List.length_append]
        exact ⟨by omega, fun _ => by omega⟩

/-- Text without escapes is read as itself. -/
theorem Spells.eq_self (h : Spells text content) (hslash : '\\' ∉ text) :
    content = text ∧ ∀ c ∈ text, c ≠ '"' ∧ c ≠ '\\' ∧ 0x20 ≤ c.toNat := by
  induction h with
  | nil => simp
  | cons first _ ih =>
      rcases stringChar_cases first with ⟨rfl, rfl, hplain⟩ | ⟨rfl, -⟩
      · obtain ⟨rfl, hothers⟩ := ih fun member => hslash (by simp [member])
        refine ⟨rfl, fun c member => ?_⟩
        rcases List.mem_cons.mp member with rfl | member
        · exact hplain
        · exact hothers c member
      · simp at hslash

theorem Spells.self_iff :
    Spells text text ↔ ∀ c ∈ text, c ≠ '"' ∧ c ≠ '\\' ∧ 0x20 ≤ c.toNat := by
  refine ⟨fun h => (h.eq_self fun member => ?_).2, Spells.of_plain⟩
  exact absurd (h.length_le.2 member) (Nat.lt_irrefl _)

/-- What is read of a text between double quotes in which no other one stands. -/
theorem stringLiteral_quoted (hquote : '"' ∉ text) {rest left : List Char} (hrest : '"' ∉ rest)
    {found : String} :
    stringLiteral ('"' :: text ++ '"' :: rest) = some (found, left) ↔
      left = rest ∧ ∃ content, Spells text content ∧ found = String.ofList content := by
  unfold stringLiteral
  rw [List.cons_append, bind_some (char_self '"' _), bind_eq_some_iff]
  constructor
  · rintro ⟨content, middle, hmany, hread⟩
    obtain ⟨_, behind, hclosing, hfound⟩ := bind_eq_some_iff.mp hread
    obtain ⟨rfl, rfl⟩ := Prod.mk.inj (Option.some.inj hfound)
    obtain rfl := char_eq_some_iff.mp hclosing
    obtain ⟨pieces, hsplit, htakes⟩ := stringChar_local.takes rfl hmany
    obtain ⟨rfl, -, rfl⟩ := (List.append_cons_inj_of_notMem hquote hrest).mp hsplit
    exact ⟨rfl, content, htakes, rfl⟩
  · rintro ⟨rfl, content, hspells, rfl⟩
    exact ⟨content, '"' :: left, hspells.many rfl, bind_some (char_self '"' _)⟩

/-- Only a string starts with a double quote. -/
theorem valueWithin_quote (depth : Nat) (text : List Char) :
    valueWithin (depth + 1) ('"' :: text) = (Json.string <$> stringLiteral) ('"' :: text) := by
  cases hread : stringLiteral ('"' :: text) with
  | some result =>
      have hscalar : scalar ('"' :: text) = some (.string result.1, result.2) := by
        unfold scalar
        rw [orElse_none rfl, orElse_none rfl, orElse_none rfl]
        exact orElse_some (map_some hread)
      rw [map_some hread]
      exact orElse_some hscalar
  | none =>
      have hnumber : numberLiteral ('"' :: text) = none := rfl
      have hscalar : scalar ('"' :: text) = none := by
        unfold scalar
        rw [orElse_none rfl, orElse_none rfl, orElse_none rfl, orElse_none (map_none hread)]
        exact map_none hnumber
      have hcollection : collection (valueWithin depth) ('"' :: text) = none :=
        (orElse_none (map_none rfl)).trans (map_none rfl)
      rw [map_none hread]
      exact (orElse_none hscalar).trans hcollection

/-- As a document it is the string of that content. -/
theorem readWithin?_quoted (hquote : '"' ∉ text) (depth : Nat) (value : Json) :
    readWithin? (depth + 1) (String.ofList ('"' :: text ++ ['"'])) = some value ↔
      ∃ content, Spells text content ∧ value = .string (String.ofList content) := by
  have hblanks : blanks ('"' :: text ++ ['"']) = some ([], '"' :: text ++ ['"']) := by
    simp [blanks, run]
  have hvalue : (blanks *> valueWithin (depth + 1)) ('"' :: text ++ ['"']) =
      (Json.string <$> stringLiteral) ('"' :: text ++ ['"']) :=
    (then_some hblanks).trans (valueWithin_quote depth _)
  have hread : ∀ found left, stringLiteral ('"' :: text ++ ['"']) = some (found, left) ↔
      left = [] ∧ ∃ content, Spells text content ∧ found = String.ofList content :=
    fun _ _ => stringLiteral_quoted hquote List.not_mem_nil
  have hdocument : ∀ found, stringLiteral ('"' :: text ++ ['"']) = some (found, []) →
      readWithin? (depth + 1) (String.ofList ('"' :: text ++ ['"'])) = some (.string found) := by
    intro found hfound
    have hall : (blanks *> valueWithin (depth + 1) <* blanks) ('"' :: text ++ ['"']) =
        some (.string found, []) := bind_some (hvalue.trans (map_some hfound))
    simp only [readWithin?, readAll?, String.toList_ofList, hall]
  constructor
  · intro h
    cases hfound : stringLiteral ('"' :: text ++ ['"']) with
    | none =>
        have hnone : (blanks *> valueWithin (depth + 1) <* blanks) ('"' :: text ++ ['"']) = none :=
          bind_none (hvalue.trans (map_none hfound))
        simp only [readWithin?, readAll?, String.toList_ofList, hnone] at h
        cases h
    | some result =>
        obtain ⟨found, left⟩ := result
        obtain ⟨rfl, content, hspells, rfl⟩ := (hread found left).mp hfound
        rw [hdocument _ hfound] at h
        cases h
        exact ⟨content, hspells, rfl⟩
  · rintro ⟨content, hspells, rfl⟩
    exact hdocument _ ((hread _ _).mpr ⟨rfl, content, hspells, rfl⟩)

theorem fourHexDigits_eq_some {n : Nat} {rest : List Char}
    (h : fourHexDigits text = some (n, rest)) :
    ∃ a b c d, text = a :: b :: c :: d :: rest ∧
      ∀ digit ∈ [a, b, c, d], fourHexDigits.isHexDigit digit = true := by
  obtain ⟨a, _, hfirst, h₁⟩ := bind_eq_some_iff.mp h
  obtain ⟨b, _, hsecond, h₂⟩ := bind_eq_some_iff.mp h₁
  obtain ⟨c, _, hthird, h₃⟩ := bind_eq_some_iff.mp h₂
  obtain ⟨d, _, hfourth, h₄⟩ := bind_eq_some_iff.mp h₃
  obtain ⟨-, rfl⟩ := Prod.mk.inj (Option.some.inj h₄)
  obtain ⟨rfl, ha⟩ := oneOf_eq_some_iff.mp hfirst
  obtain ⟨rfl, hb⟩ := oneOf_eq_some_iff.mp hsecond
  obtain ⟨rfl, hc⟩ := oneOf_eq_some_iff.mp hthird
  obtain ⟨rfl, hd⟩ := oneOf_eq_some_iff.mp hfourth
  exact ⟨a, b, c, d, rfl, by simp [ha, hb, hc, hd]⟩

/-- What follows the backslash of an escape: a mark alone, or the code of a
character, or those of the two halves of one. -/
theorem escapedChar_cases {found : Char} {rest : List Char}
    (h : escapedChar text = some (found, rest)) :
    (∃ mark, mark ∈ "\"\\/bfnrt".toList ∧ text = mark :: rest) ∨
      ∃ n code, text = 'u' :: code ∧ (fourHexDigits code = some (n, rest) ∨
        ∃ m second, fourHexDigits code = some (n, '\\' :: 'u' :: second) ∧
          fourHexDigits second = some (m, rest)) := by
  obtain ⟨mark, code, hmark, hafter⟩ := bind_eq_some_iff.mp h
  obtain ⟨rfl, -⟩ := oneOf_eq_some_iff.mp hmark
  split at hafter
  case h_9 =>
    right
    obtain ⟨n, left, hfirst, hhalf⟩ := bind_eq_some_iff.mp hafter
    refine ⟨n, code, rfl, ?_⟩
    split at hhalf
    · right
      obtain ⟨_, _, hslash, hletter⟩ := bind_eq_some_iff.mp hhalf
      obtain ⟨_, second, hletter, hcode⟩ := bind_eq_some_iff.mp hletter
      obtain ⟨m, behind, hsecond, hchar⟩ := bind_eq_some_iff.mp hcode
      obtain rfl := char_eq_some_iff.mp hslash
      obtain rfl := char_eq_some_iff.mp hletter
      split at hchar
      · obtain rfl := (ofOption_eq_some_iff.mp hchar).1
        exact ⟨m, second, hfirst, hsecond⟩
      · cases hchar
    · left
      obtain rfl := (ofOption_eq_some_iff.mp hhalf).1
      exact hfirst
  case h_10 => cases hafter
  all_goals
    left
    obtain ⟨-, rfl⟩ := Prod.mk.inj (Option.some.inj hafter)
    exact ⟨_, by decide, rfl⟩

end Json

namespace Source

open Json (Spells)

variable {text content rest left : List Char}

theorem hexDigit_of_isHexDigit {c : Char} (h : Json.fourHexDigits.isHexDigit c = true)
    (after : List Char) : hexDigit (c :: after) = some ((), after) := by
  have haccepts : (c.isDigit || ('a' ≤ c && c ≤ 'f') || ('A' ≤ c && c ≤ 'F')) = true := by
    simp only [Bool.or_eq_true, Bool.and_eq_true, decide_eq_true_eq]
    by_contra hnone
    simp only [not_or] at hnone
    obtain ⟨⟨hdigit, hlower⟩, hupper⟩ := hnone
    have hdecimal : ¬ ('0' ≤ c ∧ c ≤ '9') := by
      simpa [Char.isDigit, Char.le_def] using hdigit
    simp [Json.fourHexDigits.isHexDigit, Text.baseDigitValue?, hdecimal, hlower, hupper] at h
  exact then_some (oneOf_eq_some_iff.mpr ⟨rfl, haccepts⟩)

/-- A character that needs no escape is taken as it stands. -/
theorem quotedChar_self {c : Char} (hquote : c ≠ '"') (hslash : c ≠ '\\') (after : List Char) :
    quotedChar '"' (c :: after) = some ((), after) :=
  orElse_some (then_some (oneOf_eq_some_iff.mpr ⟨rfl, by simp [hquote, hslash]⟩))

theorem quotedChar_mark {mark : Char} (h : mark ∈ "\"\\/bfnrt".toList) (after : List Char) :
    quotedChar '"' ('\\' :: mark :: after) = some ((), after) := by
  have hmark : (mark == '"' || "\\/bfnrt".toList.contains mark) = true := by
    simpa using h
  have hafter : (char '\\' *> oneOf fun c => c == '"' || "\\/bfnrt".toList.contains c)
      ('\\' :: mark :: after) = some (mark, after) :=
    (then_some (char_self _ _)).trans (oneOf_eq_some_iff.mpr ⟨rfl, hmark⟩)
  exact (orElse_none rfl).trans (orElse_some (then_some hafter))

theorem quotedChar_code {n : Nat} {code : List Char}
    (h : Json.fourHexDigits code = some (n, rest)) :
    ∃ digits, code = digits ++ rest ∧
      ∀ after, quotedChar '"' ('\\' :: 'u' :: digits ++ after) = some ((), after) := by
  obtain ⟨a, b, c, d, rfl, hdigits⟩ := Json.fourHexDigits_eq_some h
  simp only [List.mem_cons, List.not_mem_nil, or_false, forall_eq_or_imp, forall_eq] at hdigits
  obtain ⟨ha, hb, hc, hd⟩ := hdigits
  refine ⟨[a, b, c, d], rfl, fun after => ?_⟩
  have hslash : (char '\\' *> char 'u') ('\\' :: 'u' :: a :: b :: c :: d :: after) =
      some ((), a :: b :: c :: d :: after) := rfl
  have hone := (then_some hslash).trans (hexDigit_of_isHexDigit ha _)
  have htwo := (then_some hone).trans (hexDigit_of_isHexDigit hb _)
  have hthree := (then_some htwo).trans (hexDigit_of_isHexDigit hc _)
  exact (orElse_none rfl).trans ((orElse_none rfl).trans
    ((then_some hthree).trans (hexDigit_of_isHexDigit hd _)))

/-- The shape of a literal allows every escape that JSON has. -/
theorem takes_escape {mark found : Char} {body : List Char}
    (h : Json.escapedChar (mark :: body) = some (found, [])) :
    ∃ units, Takes (quotedChar '"') ('\\' :: mark :: body) units := by
  rcases Json.escapedChar_cases h with ⟨_, hmark, heq⟩ | ⟨n, code, heq, hcode⟩
  · obtain ⟨rfl, rfl⟩ := List.cons.inj heq
    exact ⟨_, .one (quotedChar_mark hmark)⟩
  · obtain ⟨rfl, rfl⟩ := List.cons.inj heq
    rcases hcode with hone | ⟨m, second, hfirst, hsecond⟩
    · obtain ⟨digits, rfl, hread⟩ := quotedChar_code hone
      rw [List.append_nil]
      exact ⟨_, .one hread⟩
    · obtain ⟨digits, rfl, hread⟩ := quotedChar_code hfirst
      obtain ⟨others, rfl, hreadOthers⟩ := quotedChar_code hsecond
      have hboth := (Takes.one hread).append (Takes.one hreadOthers)
      exact ⟨_, by simpa using hboth⟩

theorem takes_of_spells (h : Spells text content) : ∃ units, Takes (quotedChar '"') text units := by
  induction h with
  | nil => exact ⟨[], .nil⟩
  | cons first _ ih =>
      obtain ⟨others, hothers⟩ := ih
      rcases Json.stringChar_cases first with
        ⟨rfl, -, hquote, hslash, -⟩ | ⟨rfl, mark, body, rfl, hmark⟩
      · exact ⟨_, Takes.cons (fun after => quotedChar_self hquote hslash after) hothers⟩
      · have hescape := hmark []
        rw [List.append_nil] at hescape
        obtain ⟨units, hunits⟩ := takes_escape hescape
        exact ⟨_, hunits.append hothers⟩

/-- What a string spells is taken between its quotes. -/
theorem quotedInside_of_spells (h : Spells text content) (rest : List Char) :
    quotedInside '"' ('"' :: text ++ '"' :: rest) = some (text, rest) := by
  obtain ⟨units, hunits⟩ := takes_of_spells h
  have hmany : many (quotedChar '"') (text ++ '"' :: rest) = some (units, '"' :: rest) :=
    hunits.many rfl
  have htaken : withTaken (many (quotedChar '"')) (text ++ '"' :: rest) =
      some ((units, text), '"' :: rest) := by
    simp [withTaken, hmany]
  unfold quotedInside
  rw [List.cons_append, bind_some (char_self _ _), bind_some htaken]
  exact bind_some (char_self _ _)

theorem quotedChar_leaves (quote : Char) : Leaves (quotedChar quote) := by
  have hone : ∀ accepts, Leaves (oneOf accepts) := fun accepts => .of_local (.oneOf accepts)
  have hchar : ∀ c, Leaves (char c) := fun c => .of_local (.char c)
  have hpure : Leaves (pure () : Reader Unit) := .of_local (.pure ())
  have hdigit : Leaves hexDigit := (hone _).next hpure
  refine .orElse ((hone _).next hpure) (.orElse (((hchar _).next (hone _)).next hpure) ?_)
  exact (((((hchar _).next (hchar _)).next hdigit).next hdigit).next hdigit).next hdigit

/-- A string whose text has no double quote ends at the next one, if it ends. -/
theorem quotedInside_left (hquote : '"' ∉ text) (hrest : '"' ∉ rest) {inside : List Char}
    (h : quotedInside '"' ('"' :: text ++ '"' :: rest) = some (inside, left)) : left = rest := by
  obtain ⟨_, _, hopening, hinside⟩ := bind_eq_some_iff.mp h
  obtain ⟨taken, middle, htaken, hclosing⟩ := bind_eq_some_iff.mp hinside
  obtain ⟨_, behind, hmark, hleft⟩ := bind_eq_some_iff.mp hclosing
  obtain ⟨-, rfl⟩ := Prod.mk.inj (Option.some.inj hleft)
  obtain rfl := char_eq_some_iff.mp hmark
  obtain ⟨-, rfl⟩ := List.cons.inj (char_eq_some_iff.mp hopening)
  obtain ⟨hmany, -⟩ := withTaken_eq_some_iff.mp htaken
  obtain ⟨front, hfront⟩ := (quotedChar_leaves '"').many _ _ _ hmany
  exact ((List.append_cons_inj_of_notMem hquote hrest).mp hfront.symm).2.2.symm

/-- Of the literals only a string starts with a double quote. -/
theorem literalShape_quote (depth : Nat) (text : List Char) :
    literalShape (depth + 1) ('"' :: text) = (quotedInside '"' *> pure ()) ('"' :: text) := by
  show literalShape.shape (literalShape depth) ('"' :: text) = _
  unfold literalShape.shape stringShape
  cases hinside : quotedInside '"' ('"' :: text) with
  | some result =>
      have hstring : (quotedInside '"' *> pure ()) ('"' :: text) = some ((), result.2) :=
        then_some hinside
      exact (orElse_some (orElse_some hstring)).trans hstring.symm
  | none =>
      rw [orElse_none ((orElse_none (then_none hinside)).trans rfl), then_none hinside]
      rfl

/-- What is taken of a string that ends where its text does. -/
theorem withTaken_quoted {inside : List Char}
    (h : quotedInside '"' ('"' :: text ++ '"' :: rest) = some (inside, rest)) (depth : Nat) :
    withTaken (literalShape (depth + 1)) ('"' :: text ++ '"' :: rest) =
      some (((), '"' :: text ++ ['"']), rest) := by
  have hshape : literalShape (depth + 1) ('"' :: text ++ '"' :: rest) = some ((), rest) :=
    (literalShape_quote depth _).trans (then_some h)
  refine withTaken_eq_some_iff.mpr ⟨hshape, ?_⟩
  have hsplit : '"' :: text ++ '"' :: rest = ('"' :: text ++ ['"']) ++ rest := by simp
  rw [hsplit, List.length_append, Nat.add_sub_cancel, List.take_left]

/-- An operand in double quotes is the string that its text spells; where the text
spells none it is no operand. -/
theorem operand_quoted (hquote : '"' ∉ text) (hrest : '"' ∉ rest) (depth : Nat)
    {operand : Operand} :
    operandWithin (depth + 2) ('"' :: text ++ '"' :: rest) = some (operand, left) ↔
      left = rest ∧ ∃ content, Spells text content ∧
        operand = .literal (.string (String.ofList content)) := by
  have hoperand : operandWithin (depth + 2) ('"' :: text ++ '"' :: rest) =
      literalOr (depth + 1) (Operand.path <$> path <|> nestedCall (operandWithin (depth + 1)))
        ('"' :: text ++ '"' :: rest) :=
    then_some rfl
  rw [hoperand]
  cases hinside : quotedInside '"' ('"' :: text ++ '"' :: rest) with
  | none =>
      have hshape : literalShape (depth + 1) ('"' :: text ++ '"' :: rest) = none :=
        (literalShape_quote depth _).trans (then_none hinside)
      have hother : (Operand.path <$> path <|> nestedCall (operandWithin (depth + 1)))
          ('"' :: text ++ '"' :: rest) = none := rfl
      simp only [literalOr, withTaken, hshape, hother]
      constructor
      · nofun
      · rintro ⟨-, content, hspells, -⟩
        rw [quotedInside_of_spells hspells rest] at hinside
        cases hinside
  | some result =>
      obtain ⟨inside, behind⟩ := result
      obtain rfl := quotedInside_left hquote hrest hinside
      have hvalue : literalValue? ('"' :: text ++ ['"']) =
          Json.readWithin? literalDepth (String.ofList ('"' :: text ++ ['"'])) := rfl
      have hread := Json.readWithin?_quoted hquote 126
      simp only [literalOr, withTaken_quoted hinside, hvalue, Option.map_eq_some_iff,
        Prod.mk.injEq]
      constructor
      · rintro ⟨value, hfound, rfl, rfl⟩
        obtain ⟨content, hspells, rfl⟩ := (hread value).mp hfound
        exact ⟨rfl, content, hspells, rfl⟩
      · rintro ⟨rfl, content, hspells, rfl⟩
        exact ⟨_, (hread _).mpr ⟨content, hspells, rfl⟩, rfl, rfl⟩

end Source

end Stencil
