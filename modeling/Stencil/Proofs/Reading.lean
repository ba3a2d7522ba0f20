import Stencil.Compiler
import Stencil.Proofs.Reading.Quoted

/-!
Sources of one tag that are read. An identifier is taken as far as it goes, for
what stands after it in a tag is no part of any name. Main statements: what is
read of an inclusion by name, and of a helper called with one value.
-/

namespace Stencil

namespace Source

open Reader

def isLetter (c : Char) : Bool := c.isAlpha || c == '_' || 0x80 ≤ c.toNat

/-- A letter, and letters and digits after it. -/
def IsWord : List Char → Prop
  | [] => False
  | first :: rest => isLetter first = true ∧ ∀ c ∈ rest, isLetter c = true ∨ c.isDigit = true

instance instDecidableIsWord : (word : List Char) → Decidable (IsWord word)
  | [] => inferInstanceAs (Decidable False)
  | first :: rest =>
    have : Decidable (∀ c ∈ rest, isLetter c = true ∨ c.isDigit = true) :=
      List.decidableBAll _ rest
    inferInstanceAs (Decidable
      (isLetter first = true ∧ ∀ c ∈ rest, isLetter c = true ∨ c.isDigit = true))

/-- A name that is an identifier. -/
def IsIdentifier (name : String) : Prop := IsWord name.toList

instance instDecidableIsIdentifier (name : String) : Decidable (IsIdentifier name) :=
  inferInstanceAs (Decidable (IsWord name.toList))

section

variable {c d : Char} {word rest : List Char}

theorem ne_of_isLetter (h : isLetter c = true) (hd : isLetter d = false) : c ≠ d := by
  rintro rfl
  rw [h] at hd
  cases hd

theorem isSymbol_of_isLetter (h : isLetter c = true) : isSymbol c = true := by
  simp only [isLetter, isSymbol, Char.isAlphanum, Bool.or_eq_true] at h ⊢
  rcases h with (h | h) | h
  · simp [h]
  · simp [h]
  · simp [h]

theorem isBlank_of_isLetter (h : isLetter c = true) : isBlank c = false := by
  have hspace := ne_of_isLetter h (d := ' ') (by decide)
  have htab := ne_of_isLetter h (d := '\t') (by decide)
  have hline := ne_of_isLetter h (d := '\n') (by decide)
  have hreturn := ne_of_isLetter h (d := '\r') (by decide)
  simp [isBlank, hspace, htab, hline, hreturn]

theorem isDigit_of_isLetter (h : isLetter c = true) : c.isDigit = false := by
  have halpha : c.isAlpha = (c.isUpper || c.isLower) := rfl
  have hupper : c.isUpper = decide (c.val ≥ 'A'.val ∧ c.val ≤ 'Z'.val) := rfl
  have hlower : c.isLower = (decide (c.val ≥ 'a'.val) && decide (c.val ≤ 'z'.val)) := rfl
  simp only [isLetter, halpha, hupper, hlower, Bool.or_eq_true, Bool.and_eq_true,
    decide_eq_true_eq, beq_iff_eq, UInt32.le_iff_toNat_le, ge_iff_le, Char.toNat] at h
  simp only [Char.isDigit, Bool.and_eq_false_iff, decide_eq_false_iff_not, ge_iff_le,
    UInt32.le_iff_toNat_le, Nat.not_le]
  rcases h with ((⟨hleast, _⟩ | ⟨hleast, _⟩) | rfl) | hleast
  · right
    exact Nat.lt_of_lt_of_le (by decide) hleast
  · right
    exact Nat.lt_of_lt_of_le (by decide) hleast
  · decide
  · right
    exact Nat.lt_of_lt_of_le (by decide) hleast

theorem IsWord.symbols (h : IsWord word) : ∀ c ∈ word, isSymbol c = true := by
  cases word with
  | nil => exact h.elim
  | cons first word =>
      obtain ⟨hfirst, hrest⟩ := h
      intro c member
      rcases List.mem_cons.mp member with rfl | member
      · exact isSymbol_of_isLetter hfirst
      · rcases hrest c member with hletter | hdigit
        · exact isSymbol_of_isLetter hletter
        · simp [isSymbol, Char.isAlphanum, hdigit]

/-- A word does not start with what is no letter. -/
theorem IsWord.char_none (h : IsWord word) (hd : isLetter d = false) (rest : List Char) :
    char d (word ++ rest) = none := by
  cases word with
  | nil => exact h.elim
  | cons first word => exact char_ne (ne_of_isLetter h.1 hd) _

theorem IsWord.oneOf_none (h : IsWord word) {accepts : Char → Bool}
    (haccepts : ∀ c, isLetter c = true → accepts c = false) (rest : List Char) :
    oneOf accepts (word ++ rest) = none := by
  cases word with
  | nil => exact h.elim
  | cons first word => simp [oneOf, haccepts first h.1]

theorem IsWord.run1 (h : IsWord word) {accepts : Char → Bool} {marker : Char}
    (hword : ∀ c ∈ word, accepts c = true) (hmarker : accepts marker = false) (rest : List Char) :
    Reader.run1 accepts (word ++ marker :: rest) = some (word, marker :: rest) := by
  cases word with
  | nil => exact h.elim
  | cons first word =>
      exact run1_word (hword first List.mem_cons_self)
        (fun c member => hword c (List.mem_cons_of_mem first member)) hmarker rest

theorem IsWord.blanks (h : IsWord word) (rest : List Char) :
    blanks (word ++ rest) = some ([], word ++ rest) := by
  cases word with
  | nil => exact h.elim
  | cons first word => simp [Source.blanks, run, isBlank_of_isLetter h.1]

theorem IsWord.blanks_before (h : IsWord word) (rest : List Char) :
    Source.blanks (' ' :: word ++ rest) = some ([' '], word ++ rest) := by
  have hrest := h.blanks rest
  simp only [Source.blanks, run, Option.some.injEq, Prod.mk.injEq] at hrest ⊢
  simp [hrest.1, hrest.2, isBlank]

/-- What stands behind a word in a tag: a blank, or the end of the tag. -/
def IsEnd (c : Char) : Prop := c = ' ' ∨ c = '\x7d'

theorem IsEnd.isSymbol (h : IsEnd d) : isSymbol d = false := by
  rcases h with rfl | rfl <;> decide

theorem IsWord.name (h : IsWord word) (hd : IsEnd d) (rest : List Char) :
    name (word ++ d :: rest) = some (String.ofList word, d :: rest) :=
  map_some (h.run1 h.symbols hd.isSymbol rest)

theorem blanks_symbol (hc : isSymbol c = true) : blanks (c :: rest) = some ([], c :: rest) := by
  have hblank : isBlank c = false := by
    cases hcase : isBlank c with
    | false => rfl
    | true =>
        simp only [isBlank, Bool.or_eq_true, beq_iff_eq] at hcase
        rcases hcase with ((rfl | rfl) | rfl) | rfl
        all_goals exact absurd hc (by decide)
  simp [Source.blanks, run, hblank]

theorem endOfName_symbol (hc : isSymbol c = true) : endOfName (c :: rest) = none := by
  simp [endOfName, notAhead, oneOf, hc]

/-- Where another word begins with one that a tag knows, it goes on with a
symbol, so that the known one does not end there. -/
theorem IsWord.goes_on (h : IsWord word) {known : String} {left : List Char} {result : Unit}
    (hknown : d ∉ known.toList) (hne : word ≠ known.toList)
    (hfront : Reader.word known (word ++ d :: rest) = some (result, left)) :
    ∃ c more, left = c :: more ∧ isSymbol c = true := by
  obtain ⟨more, rfl, rfl⟩ := word_of_word hknown hfront
  cases more with
  | nil => simp at hne
  | cons c more => exact ⟨c, _, rfl, h.symbols c (by simp)⟩

theorem IsWord.keyword_none (h : IsWord word) {known : String} (hknown : d ∉ known.toList)
    (hne : word ≠ known.toList) : keyword known (word ++ d :: rest) = none := by
  unfold keyword
  cases hfront : Reader.word known (word ++ d :: rest) with
  | none => exact then_none hfront
  | some result =>
      obtain ⟨c, more, hleft, hsymbol⟩ := h.goes_on hknown hne hfront
      rw [then_some hfront, hleft]
      exact endOfName_symbol hsymbol

theorem IsWord.endOfArguments_none (h : IsWord word) (hd : IsEnd d) (has : word ≠ "as".toList)
    (helse : word ≠ "else".toList) : endOfArguments (word ++ d :: rest) = none := by
  have hends : d ∉ "as".toList ∧ d ∉ "else".toList := by
    rcases hd with rfl | rfl <;> decide
  have hgoes : ∀ result left, (Reader.word "as" <|> Reader.word "else") (word ++ d :: rest) =
      some (result, left) → ∃ c more, left = c :: more ∧ isSymbol c = true := by
    intro result left hfront
    cases hfirst : Reader.word "as" (word ++ d :: rest) with
    | some found =>
        rw [orElse_some hfirst] at hfront
        obtain ⟨rfl, rfl⟩ := Prod.mk.inj (Option.some.inj hfront)
        exact h.goes_on hends.1 has hfirst
    | none =>
        rw [orElse_none hfirst] at hfront
        exact h.goes_on hends.2 helse hfront
  unfold endOfArguments
  cases hfront : (Reader.word "as" <|> Reader.word "else") (word ++ d :: rest) with
  | none => exact then_none (then_none hfront)
  | some found =>
      obtain ⟨c, more, hleft, hsymbol⟩ := hgoes found.1 found.2 hfront
      have hblanks : ((Reader.word "as" <|> Reader.word "else") *> Source.blanks)
          (word ++ d :: rest) = some ([], c :: more) := by
        rw [then_some hfront, hleft]
        exact blanks_symbol hsymbol
      rw [then_some hblanks]
      exact endOfName_symbol hsymbol

/-- The path that a word alone is. -/
theorem IsWord.path (h : IsWord word) (hd : IsEnd d) (rest : List Char) :
    path (word ++ d :: rest) = some (⟨String.ofList word,
      ([String.ofList word].filter (· != "this")).map .key⟩, d :: rest) := by
  have hnone : ∀ c, isLetter c = false → char c (word ++ d :: rest) = none := fun c hc =>
    h.char_none hc _
  have hend : d ∉ "this".toList ∧ isSeparator d = false := by
    rcases hd with rfl | rfl <;> decide
  have hthis : (Reader.word "this" *> separator) (word ++ d :: rest) = none := by
    cases hfront : Reader.word "this" (word ++ d :: rest) with
    | none => exact then_none hfront
    | some found =>
        obtain ⟨more, rfl, hleft⟩ := word_of_word hend.1 hfront
        rw [then_some hfront, hleft]
        apply then_none
        cases more with
        | nil => simp [oneOf, hend.2]
        | cons c more =>
            have hsymbol : isSymbol c = true := h.symbols c (by simp)
            have hseparator : isSeparator c = false := by
              cases hcase : isSeparator c with
              | false => rfl
              | true =>
                  simp only [isSeparator, Bool.or_eq_true, beq_iff_eq] at hcase
                  rcases hcase with rfl | rfl
                  all_goals exact absurd hsymbol (by decide)
            simp [oneOf, hseparator]
  have hfirst : ∀ c cs, isLetter c = false → chars (c :: cs) (word ++ d :: rest) = none :=
    fun c cs hc => bind_none (hnone c hc)
  have hstaying : staying (word ++ d :: rest) = none :=
    (orElse_none hthis).trans (hfirst '.' _ (by decide))
  have hroot : (Reader.word "@root" *> separator) (word ++ d :: rest) = none :=
    then_none (hfirst '@' _ (by decide))
  have hvariable : char '@' (word ++ d :: rest) = none := hnone '@' (by decide)
  have hups : (Reader.word ".." *> separator) (word ++ d :: rest) = none :=
    then_none (hfirst '.' _ (by decide))
  have hkey : pathKey (word ++ d :: rest) = some (String.ofList word, d :: rest) :=
    orElse_some (map_some (h.run1 h.symbols hd.isSymbol _))
  have hothers : (separator *> pathKey) (d :: rest) = none := by
    rcases hd with rfl | rfl <;> rfl
  have hsteps : pathSteps (word ++ d :: rest) =
      some (([String.ofList word].filter (· != "this")).map .key, d :: rest) := by
    unfold pathSteps
    rw [bind_some (maybe_none hstaying), bind_some (maybe_none hroot),
      bind_some (maybe_none hvariable), bind_some (many_none hups), bind_some hkey,
      bind_some (many_none hothers)]
    rfl
  unfold Source.path
  have htaken : withTaken pathSteps (word ++ d :: rest) =
      some ((([String.ofList word].filter (· != "this")).map .key, word), d :: rest) := by
    simp [withTaken, hsteps]
  rw [bind_some htaken]
  rfl

/-- What is no literal: it begins with nothing that a literal begins with. -/
theorem literalShape_none {text : List Char} (hdouble : char '"' text = none)
    (hsingle : char '\'' text = none) (hlist : char '[' text = none)
    (hbrace : char '\x7b' text = none) (hnumber : numberShape text = none)
    (hwords : ∀ known ∈ ["null", "true", "false"], keyword known text = none) (depth : Nat) :
    literalShape depth text = none := by
  cases depth with
  | zero => rfl
  | succ depth =>
      have hstring : stringShape text = none :=
        (orElse_none (then_none (bind_none hdouble))).trans (then_none (bind_none hsingle))
      simp only [List.mem_cons, List.not_mem_nil, or_false, forall_eq_or_imp, forall_eq] at hwords
      obtain ⟨hnull, htrue, hfalse⟩ := hwords
      have hshape : ∀ closing part, listShape '[' closing part text = none := fun _ _ =>
        bind_none hlist
      have hshape' : ∀ closing part, listShape '\x7b' closing part text = none := fun _ _ =>
        bind_none hbrace
      show literalShape.shape (literalShape depth) text = none
      unfold literalShape.shape
      rw [orElse_none hstring, orElse_none (hshape _ _), orElse_none (hshape' _ _),
        orElse_none hnumber, orElse_none hnull, orElse_none htrue]
      exact hfalse

theorem IsWord.literalShape_none (h : IsWord word)
    (hwords : ∀ known ∈ ["null", "true", "false"], word ≠ known.toList) (depth : Nat) :
    literalShape depth (word ++ closeBraces) = none := by
  have hnumber : numberShape (word ++ closeBraces) = none := by
    unfold numberShape
    rw [bind_some (maybe_none (h.char_none (by decide) closeBraces))]
    exact bind_none (bind_none (h.oneOf_none (fun c hc => isDigit_of_isLetter hc) closeBraces))
  apply Source.literalShape_none
  · exact h.char_none (by decide) closeBraces
  · exact h.char_none (by decide) closeBraces
  · exact h.char_none (by decide) closeBraces
  · exact h.char_none (by decide) closeBraces
  · exact hnumber
  · intro known member
    have hmarker : '\x7d' ∉ known.toList := by
      simp only [List.mem_cons, List.not_mem_nil, or_false] at member
      rcases member with rfl | rfl | rfl <;> decide
    exact h.keyword_none hmarker (hwords known member)

theorem literalOr_none {depth : Nat} {text : List Char} {other : Reader Operand}
    (h : literalShape depth text = none) : literalOr depth other text = other text := by
  simp [literalOr, withTaken, h]

/-- A word that is no literal and does not end the arguments is a path. -/
theorem IsWord.operand (h : IsWord word)
    (hwords : ∀ known ∈ ["as", "else", "null", "true", "false"], word ≠ known.toList)
    (depth : Nat) :
    operandWithin (depth + 1) (word ++ closeBraces) = some (.path ⟨String.ofList word,
      ([String.ofList word].filter (· != "this")).map .key⟩, closeBraces) := by
  have hends : endOfArguments (word ++ closeBraces) = none :=
    h.endOfArguments_none (.inr rfl) (hwords "as" (by simp)) (hwords "else" (by simp))
  have hliteral : literalShape depth (word ++ closeBraces) = none :=
    h.literalShape_none (fun known member =>
      hwords known (List.mem_cons_of_mem _ (List.mem_cons_of_mem _ member))) depth
  show (notAhead endOfArguments *> literalOr depth _) (word ++ closeBraces) = _
  rw [then_some (notAhead_none hends), literalOr_none hliteral]
  exact orElse_some (map_some (h.path (.inr rfl) _))

/-- No argument starts where a tag ends. -/
theorem argument_end (depth : Nat) :
    (blanks *> argument (operandWithin (depth + 1))) closeBraces = none := by
  have hoperand : operandWithin (depth + 1) closeBraces = none := by
    have hliteral : literalShape depth closeBraces = none := by
      apply Source.literalShape_none
      · rfl
      · rfl
      · rfl
      · rfl
      · rfl
      · intro known member
        simp only [List.mem_cons, List.not_mem_nil, or_false] at member
        rcases member with rfl | rfl | rfl <;> rfl
    show (notAhead endOfArguments *> literalOr depth _) closeBraces = _
    rw [then_some rfl, literalOr_none hliteral]
    rfl
  have hargument : argument (operandWithin (depth + 1)) closeBraces = none :=
    (orElse_none rfl).trans (map_none hoperand)
  exact hargument

theorem IsWord.argument (h : IsWord word)
    (hwords : ∀ known ∈ ["as", "else", "null", "true", "false"], word ≠ known.toList)
    (depth : Nat) :
    (Source.blanks *> Source.argument (operandWithin (depth + 1))) (' ' :: word ++ closeBraces) =
      some (.plain (.path ⟨String.ofList word,
        ([String.ofList word].filter (· != "this")).map .key⟩), closeBraces) := by
  have hnamed : (do
      let key ← Source.name
      let _ ← Source.blanks
      char '='
      let _ ← Source.blanks
      return Argument.named key (← operandWithin (depth + 1))) (word ++ closeBraces) = none := by
    have hname : Source.name (word ++ closeBraces) = some (String.ofList word, closeBraces) :=
      h.name (.inr rfl) _
    rw [bind_some hname]
    rfl
  rw [then_some (h.blanks_before closeBraces)]
  exact (orElse_none hnamed).trans (map_some (h.operand hwords depth))

/-- An argument in double quotes is a string, if it spells one. -/
theorem argument_quoted {text rest left : List Char} (hquote : '"' ∉ text) (hrest : '"' ∉ rest)
    (depth : Nat) {argument : Argument} :
    (blanks *> Source.argument (operandWithin (depth + 2))) (' ' :: '"' :: text ++ '"' :: rest) =
        some (argument, left) ↔
      left = rest ∧ ∃ content, Json.Spells text content ∧
        argument = .plain (.literal (.string (String.ofList content))) := by
  have hblanks : blanks (' ' :: '"' :: text ++ '"' :: rest) =
      some ([' '], '"' :: text ++ '"' :: rest) := by
    simp [blanks, run, isBlank]
  have hargument : (blanks *> Source.argument (operandWithin (depth + 2)))
      (' ' :: '"' :: text ++ '"' :: rest) =
        (Argument.plain <$> operandWithin (depth + 2)) ('"' :: text ++ '"' :: rest) :=
    (then_some hblanks).trans (orElse_none rfl)
  rw [hargument]
  constructor
  · intro h
    obtain ⟨operand, _, hread, hplain⟩ := bind_eq_some_iff.mp h
    obtain ⟨rfl, rfl⟩ := Prod.mk.inj (Option.some.inj hplain)
    obtain ⟨hleft, content, hspells, rfl⟩ := (operand_quoted hquote hrest depth).mp hread
    exact ⟨hleft, content, hspells, rfl⟩
  · rintro ⟨hleft, content, hspells, rfl⟩
    exact map_some ((operand_quoted hquote hrest depth).mpr ⟨hleft, content, hspells, rfl⟩)

/-- What a call of a name with arguments is. -/
theorem IsWord.valueCall (h : IsWord word) {depth : Nat} {arguments : List Argument}
    {text : List Char}
    (harguments : many1 (Source.blanks *> Source.argument (operandWithin depth)) (' ' :: text) =
      some (arguments, closeBraces)) :
    valueCall depth (word ++ ' ' :: text) =
      some (callOf (.word (String.ofList word)) arguments, closeBraces) := by
  apply orElse_some
  rw [bind_some (h.name (.inl rfl) _), bind_some harguments]
  rfl

/-- A word that no argument follows is the path of that word. -/
theorem IsWord.valueCall_path (h : IsWord word) (hd : IsEnd d) {depth : Nat}
    (hnone : (Source.blanks *> Source.argument (operandWithin depth)) (d :: rest) = none) :
    Source.valueCall depth (word ++ d :: rest) = some (.mk (.path ⟨String.ofList word,
      ([String.ofList word].filter (· != "this")).map .key⟩) [] [], d :: rest) := by
  have hcall : (do
      let head ← Source.name
      let arguments ← many1 (Source.blanks *> Source.argument (operandWithin depth))
      return callOf (.word head) arguments) (word ++ d :: rest) = none := by
    rw [bind_some (h.name hd _)]
    exact bind_none (bind_none hnone)
  have hnested : nestedCall (operandWithin depth) (word ++ d :: rest) = none :=
    bind_none (h.char_none (by decide) _)
  exact (orElse_none hcall).trans
    (map_some ((orElse_none hnested).trans (map_some (h.path hd _))))

/-- A tag whose inside starts with no blank and no tilde is what is inside it, up
to where the tag has to end. -/
theorem tagOf_inside {first : Char} {text : List Char} (hblank : isBlank first = false)
    (htilde : first ≠ '~') (kind : Reader TagKind) :
    tagOf openBraces closeBraces kind ('\x7b' :: '\x7b' :: first :: text) = (do
      let found ← kind
      let _ ← blanks
      let trimsAfter ← tilde
      let _ ← blanks
      chars closeBraces
      return ⟨found, false, trimsAfter⟩ : Reader Tag) (first :: text) := by
  have hblanks : blanks (first :: text) = some ([], first :: text) := by simp [blanks, run, hblank]
  have htildes : tilde (first :: text) = some (false, first :: text) :=
    map_some (maybe_none (char_ne htilde text))
  have hopening : chars openBraces ('\x7b' :: '\x7b' :: first :: text) =
      some ((), first :: text) := chars_eq_some_iff.mpr rfl
  unfold tagOf
  rw [bind_some hopening, bind_some hblanks, bind_some htildes, bind_some hblanks]

theorem tagOf_some {kind : Reader TagKind} {first : Char} {text : List Char} {found : TagKind}
    (hblank : isBlank first = false) (htilde : first ≠ '~')
    (h : kind (first :: text) = some (found, closeBraces)) :
    tagOf openBraces closeBraces kind ('\x7b' :: '\x7b' :: first :: text) =
      some (⟨found, false, false⟩, []) := by
  rw [tagOf_inside hblank htilde, bind_some h]
  rfl

theorem tagOf_none {kind : Reader TagKind} {first : Char} {text : List Char}
    (hblank : isBlank first = false) (htilde : first ≠ '~') (h : kind (first :: text) = none) :
    tagOf openBraces closeBraces kind ('\x7b' :: '\x7b' :: first :: text) = none := by
  rw [tagOf_inside hblank htilde]
  exact bind_none h

/-- A tag does not end where something else stands behind a blank. -/
theorem tagOf_unended {kind : Reader TagKind} {first c : Char} {text rest : List Char}
    {found : TagKind} (hblank : isBlank first = false) (htilde : first ≠ '~')
    (h : kind (first :: text) = some (found, ' ' :: c :: rest)) (hc : isBlank c = false)
    (htildeAfter : c ≠ '~') (hclosing : c ≠ '\x7d') :
    tagOf openBraces closeBraces kind ('\x7b' :: '\x7b' :: first :: text) = none := by
  have hafter : blanks (c :: rest) = some ([], c :: rest) := by simp [blanks, run, hc]
  have hspace : isBlank ' ' = true := rfl
  have hbefore : blanks (' ' :: c :: rest) = some ([' '], c :: rest) := by
    simp [blanks, run, hspace, hc]
  have htildesAfter : tilde (c :: rest) = some (false, c :: rest) :=
    map_some (maybe_none (char_ne htildeAfter rest))
  rw [tagOf_inside hblank htilde, bind_some h, bind_some hbefore, bind_some htildesAfter,
    bind_some hafter]
  exact bind_none (bind_none (char_ne hclosing rest))

/-- A tag that starts with a word is a value or none at all, unless the word
starts with that of an alternative. -/
theorem IsWord.tag_eq (h : IsWord word) (helse : ¬ "else".toList <+: word) (hd : IsEnd d)
    (depth : Nat) (text : List Char) :
    Source.tag depth (openBraces ++ (word ++ d :: text)) =
      tagOf openBraces closeBraces (TagKind.expression false <$> Source.valueCall depth)
        (openBraces ++ (word ++ d :: text)) := by
  have hend : d ∉ "else".toList := by
    rcases hd with rfl | rfl <;> decide
  have hword : alternativeWord (word ++ d :: text) = none := by
    have hfront : Reader.word "else" (word ++ d :: text) = none := by
      cases hcase : Reader.word "else" (word ++ d :: text) with
      | none => rfl
      | some found =>
          obtain ⟨more, rfl, _⟩ := word_of_word hend hcase
          exact absurd (List.prefix_append _ more) helse
    exact (orElse_none hfront).trans (h.char_none (by decide) _)
  cases word with
  | nil => exact h.elim
  | cons first word =>
      have hblank := isBlank_of_isLetter h.1
      have htilde : first ≠ '~' := ne_of_isLetter h.1 (by decide)
      have hnone : ∀ c, isLetter c = false → char c (first :: word ++ d :: text) = none :=
        fun c hc => h.char_none hc _
      have hkind : ∀ kind : Reader TagKind, kind (first :: word ++ d :: text) = none →
          tagOf openBraces closeBraces kind (openBraces ++ (first :: word ++ d :: text)) = none :=
        fun kind hkind => tagOf_none hblank htilde hkind
      have halternative : alternativeTag (openBraces ++ (first :: word ++ d :: text)) = none :=
        hkind _ (then_none hword)
      have hblock : alternativeBlockTag depth (openBraces ++ (first :: word ++ d :: text)) =
          none := hkind _ (bind_none hword)
      have hahead := notAhead_none ((orElse_none halternative).trans hblock)
      have hexpression : expressionTag depth (openBraces ++ (first :: word ++ d :: text)) =
          tagOf openBraces closeBraces (TagKind.expression false <$> Source.valueCall depth)
            (openBraces ++ (first :: word ++ d :: text)) := bind_some hahead
      have htriple : ∀ c, isLetter c = false → chars (openBraces ++ [c])
          (openBraces ++ (first :: word ++ d :: text)) = none := by
        intro c hc
        show chars [c] (first :: word ++ d :: text) = none
        exact bind_none (hnone c hc)
      have hraw : rawTag depth (openBraces ++ (first :: word ++ d :: text)) = none :=
        (orElse_none (bind_none (htriple '\x7b' (by decide)))).trans
          ((orElse_none (hkind _ (bind_none (hnone '\x7b' (by decide))))).trans
            (hkind _ (bind_none (hnone '&' (by decide)))))
      have hopening : openingTag depth (openBraces ++ (first :: word ++ d :: text)) = none :=
        hkind _ (bind_none (hnone '#' (by decide)))
      have hclosing : closingTag (openBraces ++ (first :: word ++ d :: text)) = none :=
        hkind _ (bind_none (hnone '/' (by decide)))
      have hinclusion : inclusionTag depth (openBraces ++ (first :: word ++ d :: text)) = none :=
        hkind _ (bind_none (hnone '>' (by decide)))
      have hcomment : commentTag (openBraces ++ (first :: word ++ d :: text)) = none :=
        bind_none (htriple '!' (by decide))
      unfold Source.tag
      cases hcase : tagOf openBraces closeBraces
          (TagKind.expression false <$> Source.valueCall depth)
          (openBraces ++ (first :: word ++ d :: text)) with
      | some found => exact orElse_some (hexpression.trans hcase)
      | none =>
          rw [orElse_none (hexpression.trans hcase), orElse_none hraw, orElse_none hopening,
            orElse_none hclosing, orElse_none halternative, orElse_none hblock,
            orElse_none hinclusion]
          exact hcomment

theorem IsWord.tag (h : IsWord word) (helse : ¬ "else".toList <+: word) (hd : IsEnd d)
    {depth : Nat} {text : List Char} {call : Call}
    (hcall : Source.valueCall depth (word ++ d :: text) = some (call, closeBraces)) :
    tag depth (openBraces ++ (word ++ d :: text)) =
      some (⟨.expression false call, false, false⟩, []) := by
  rw [h.tag_eq helse hd]
  cases word with
  | nil => exact h.elim
  | cons first word =>
      exact tagOf_some (isBlank_of_isLetter h.1) (ne_of_isLetter h.1 (by decide)) (map_some hcall)

/-- A source of one tag is what that tag leaves of it. -/
theorem read_tag {text : List Char} {kind : TagKind} {element : Element}
    (htag : ∀ depth, tag (depth + 2) (openBraces ++ text) = some (⟨kind, false, false⟩, []))
    (helements : elements 3 (layout [.tag ⟨kind, false, false⟩]) = some ([element], [])) :
    read? (String.ofList (openBraces ++ text)) = some [element] := by
  have hpieces : pieces (text.length + 3) (text.length + 3) (openBraces ++ text) =
      some [.tag ⟨kind, false, false⟩] := by
    have hstarts : startsTag (openBraces ++ text) = true := rfl
    have htag' := htag (text.length + 1)
    show (if startsTag (openBraces ++ text) then _ else _) = _
    rw [if_pos hstarts, htag']
    rfl
  simp only [read?, String.toList_ofList]
  have hbound : (openBraces ++ text).length + 1 = text.length + 3 := by
    simp [openBraces]
  rw [hbound, hpieces]
  simp only [List.length_singleton, Nat.reduceMul, Nat.reduceAdd, helements]

/-- A source that starts with a tag that cannot be read is refused. -/
theorem read_none {text : List Char}
    (htag : ∀ depth, tag (depth + 2) (openBraces ++ text) = none) :
    read? (String.ofList (openBraces ++ text)) = none := by
  have hpieces : pieces (text.length + 3) (text.length + 3) (openBraces ++ text) = none := by
    have hstarts : startsTag (openBraces ++ text) = true := rfl
    have htag' := htag (text.length + 1)
    show (if startsTag (openBraces ++ text) then _ else _) = _
    rw [if_pos hstarts, htag']
  have hbound : (openBraces ++ text).length + 1 = text.length + 3 := by
    simp [openBraces]
  simp only [read?, String.toList_ofList, hbound, hpieces]

theorem read_value {text : List Char} {call : Call}
    (h : ∀ depth, tag (depth + 2) (openBraces ++ text) =
      some (⟨.expression false call, false, false⟩, [])) :
    read? (String.ofList (openBraces ++ text)) = some [.expression false call] :=
  read_tag h rfl

/-- What is read of a helper called with one value. -/
theorem IsWord.read_call (h : IsWord word) (helse : ¬ "else".toList <+: word) {key : List Char}
    (hkey : IsWord key)
    (hwords : ∀ known ∈ ["as", "else", "null", "true", "false"], key ≠ known.toList)
    (hthis : String.ofList key ≠ "this") :
    read? (String.ofList (openBraces ++ (word ++ ' ' :: key ++ closeBraces))) =
      some [.expression false (.mk (.word (String.ofList word))
        [.path ⟨String.ofList key, [.key (String.ofList key)]⟩] [])] := by
  have hsteps : ([String.ofList key].filter (· != "this")).map Step.key =
      [.key (String.ofList key)] := by
    simp [hthis]
  apply read_value
  intro depth
  have hargument := hkey.argument hwords (depth + 1)
  rw [hsteps] at hargument
  have hcall := h.valueCall (many1_one hargument (argument_end (depth + 1)))
  simp only [List.append_assoc, List.cons_append] at hcall ⊢
  exact h.tag helse (.inl rfl) hcall

/-- The inside of a tag that calls a word with a text in quotes and the value in
scope, and its end. -/
def quotedCall (word text : List Char) : List Char :=
  word ++ ' ' :: '"' :: text ++ '"' :: ' ' :: "this".toList ++ closeBraces

theorem IsWord.read_quotedCall (h : IsWord word) (helse : ¬ "else".toList <+: word)
    {text content : List Char} (hquote : '"' ∉ text) (hspells : Json.Spells text content) :
    read? (String.ofList (openBraces ++ quotedCall word text)) =
      some [.expression false (.mk (.word (String.ofList word))
        [.literal (.string (String.ofList content)), .path ⟨"this", []⟩] [])] := by
  apply read_value
  intro depth
  have hthis : IsWord "this".toList := by decide
  have hargument := hthis.argument (by decide) (depth + 1)
  have hquoted : (Source.blanks *> Source.argument (operandWithin (depth + 2)))
      (' ' :: '"' :: text ++ '"' :: (' ' :: "this".toList ++ closeBraces)) =
        some (.plain (.literal (.string (String.ofList content))),
          ' ' :: "this".toList ++ closeBraces) :=
    (argument_quoted hquote (by decide) depth).mpr ⟨rfl, content, hspells, rfl⟩
  have hcall := h.valueCall (many1_two hquoted hargument (argument_end (depth + 1)))
  simp only [quotedCall, List.append_assoc, List.cons_append] at hcall ⊢
  exact h.tag helse (.inl rfl) hcall

/-- Where the text spells no string, the word has no arguments, and the tag should
end before the quotes. -/
theorem IsWord.read_quotedCall_none (h : IsWord word) (helse : ¬ "else".toList <+: word)
    {text : List Char} (hquote : '"' ∉ text) (hspells : ¬ ∃ content, Json.Spells text content) :
    read? (String.ofList (openBraces ++ quotedCall word text)) = none := by
  apply read_none
  intro depth
  have hargument : (Source.blanks *> Source.argument (operandWithin (depth + 2)))
      (' ' :: '"' :: text ++ '"' :: (' ' :: "this".toList ++ closeBraces)) = none := by
    rw [Option.eq_none_iff_forall_not_mem]
    rintro ⟨argument, left⟩ hfound
    obtain ⟨-, content, hcontent, -⟩ := (argument_quoted hquote (by decide) depth).mp hfound
    exact hspells ⟨content, hcontent⟩
  have hcall := h.valueCall_path (.inl rfl) hargument
  simp only [quotedCall, List.append_assoc, List.cons_append] at hcall ⊢
  rw [h.tag_eq helse (.inl rfl)]
  cases word with
  | nil => exact h.elim
  | cons first word =>
      exact tagOf_unended (isBlank_of_isLetter h.1) (ne_of_isLetter h.1 (by decide))
        (map_some hcall) rfl (by decide) (by decide)

/-- What is read of such a call. -/
theorem IsWord.read_quotedCall_iff (h : IsWord word) (helse : ¬ "else".toList <+: word)
    {text : List Char} (hquote : '"' ∉ text) {elements : List Element} :
    read? (String.ofList (openBraces ++ quotedCall word text)) = some elements ↔
      ∃ content, Json.Spells text content ∧ elements =
        [.expression false (.mk (.word (String.ofList word))
          [.literal (.string (String.ofList content)), .path ⟨"this", []⟩] [])] := by
  constructor
  · intro hsome
    by_cases hspells : ∃ content, Json.Spells text content
    · obtain ⟨content, hcontent⟩ := hspells
      rw [h.read_quotedCall helse hquote hcontent] at hsome
      exact ⟨content, hcontent, (Option.some.inj hsome).symm⟩
    · rw [h.read_quotedCall_none helse hquote hspells] at hsome
      cases hsome
  · rintro ⟨content, hcontent, rfl⟩
    exact h.read_quotedCall helse hquote hcontent

/-- A tag that includes a partial is no other tag. -/
theorem tag_inclusion {depth : Nat} {text rest : List Char} {call : Call}
    (hblanks : blanks text = some ([' '], rest))
    (h : inclusionCall depth rest = some (call, closeBraces)) :
    tag depth (openBraces ++ '>' :: text) = some (⟨.inclusion call {}, false, false⟩, []) := by
  have hkind : ∀ kind : Reader TagKind, kind ('>' :: text) = none →
      tagOf openBraces closeBraces kind (openBraces ++ '>' :: text) = none :=
    fun kind hkind => tagOf_none rfl (by decide) hkind
  have halternative : alternativeTag (openBraces ++ '>' :: text) = none := hkind _ rfl
  have hblock : alternativeBlockTag depth (openBraces ++ '>' :: text) = none := hkind _ rfl
  have hahead := notAhead_none ((orElse_none halternative).trans hblock)
  have hvalue : valueCall depth ('>' :: text) = none := rfl
  have hexpression : expressionTag depth (openBraces ++ '>' :: text) = none :=
    (bind_some hahead).trans (hkind _ (map_none hvalue))
  have hraw : rawTag depth (openBraces ++ '>' :: text) = none :=
    (orElse_none rfl).trans ((orElse_none (hkind _ rfl)).trans (hkind _ rfl))
  have hopening : openingTag depth (openBraces ++ '>' :: text) = none := hkind _ rfl
  have hclosing : closingTag (openBraces ++ '>' :: text) = none := hkind _ rfl
  unfold tag
  rw [orElse_none hexpression, orElse_none hraw, orElse_none hopening, orElse_none hclosing,
    orElse_none halternative, orElse_none hblock]
  apply orElse_some
  apply tagOf_some rfl (by decide)
  rw [bind_some (char_self '>' text), bind_some hblanks, bind_some h]
  rfl

/-- What is read of an inclusion by name. -/
theorem IsWord.read_inclusion (h : IsWord word) :
    read? (String.ofList (openBraces ++ '>' :: ' ' :: word ++ closeBraces)) =
      some [.inclusion (.mk (.word (String.ofList word)) [] []) ⟨"", true⟩] := by
  have hsymbols : ∀ c ∈ word, isPartialSymbol c = true := by
    cases word with
    | nil => exact h.elim
    | cons first word =>
        intro c member
        have hletter : isLetter c = true ∨ c.isDigit = true := by
          rcases List.mem_cons.mp member with rfl | member
          · exact .inl h.1
          · exact h.2 c member
        simp only [isLetter, isPartialSymbol, Char.isAlphanum, Bool.or_eq_true] at hletter ⊢
        rcases hletter with ((halpha | hline) | hlarge) | hdigit
        · simp [halpha]
        · simp [hline]
        · simp [hlarge]
        · simp [hdigit]
  have htag : ∀ depth, Source.tag (depth + 2) (openBraces ++ '>' :: ' ' :: word ++ closeBraces) =
      some (⟨.inclusion (.mk (.word (String.ofList word)) [] []) {}, false, false⟩, []) := by
    intro depth
    have hname : partialName (word ++ closeBraces) = some (String.ofList word, closeBraces) :=
      orElse_some (map_some (h.run1 hsymbols (by decide) _))
    have hhead : (Operand.word <$> partialName <|> headOperand (depth + 2)) (word ++ closeBraces) =
        some (.word (String.ofList word), closeBraces) := orElse_some (map_some hname)
    have hcall : inclusionCall (depth + 2) (word ++ closeBraces) =
        some (.mk (.word (String.ofList word)) [] [], closeBraces) := by
      unfold inclusionCall
      rw [bind_some hhead, bind_some (many_none (argument_end (depth + 1)))]
      rfl
    exact tag_inclusion (h.blanks_before closeBraces) hcall
  exact read_tag htag rfl

/-- Words that are no keys of their own where a value may stand. -/
def reserved : List String := ["as", "else", "null", "true", "false", "this"]

theorem read_inclusion {name : String} (h : IsIdentifier name) :
    read? ("\x7b\x7b> " ++ name ++ "\x7d\x7d") =
      some [.inclusion (.mk (.word name) [] []) ⟨"", true⟩] := by
  have hsource : "\x7b\x7b> " ++ name ++ "\x7d\x7d" =
      String.ofList (openBraces ++ '>' :: ' ' :: name.toList ++ closeBraces) := by
    apply String.toList_inj.mp
    simp [openBraces, closeBraces]
  rw [hsource, IsWord.read_inclusion h, String.ofList_toList]

/-- What is read of a name that stands alone in a tag. -/
theorem read_name {name : String} (h : IsIdentifier name)
    (helse : ¬ "else".toList <+: name.toList) (hthis : name ≠ "this") :
    read? ("\x7b\x7b" ++ name ++ "\x7d\x7d") =
      some [.expression false (.mk (.path ⟨name, [.key name]⟩) [] [])] := by
  have hsource : "\x7b\x7b" ++ name ++ "\x7d\x7d" =
      String.ofList (openBraces ++ (name.toList ++ closeBraces)) := by
    apply String.toList_inj.mp
    simp [openBraces, closeBraces]
  have hsteps : ([name].filter (· != "this")).map Step.key = [.key name] := by
    simp [hthis]
  rw [hsource]
  apply read_value
  intro depth
  have hcall := IsWord.valueCall_path h (.inr rfl) (argument_end (depth + 1))
  simp only [String.ofList_toList, hsteps] at hcall
  exact IsWord.tag h helse (.inr rfl) hcall

theorem read_call {name key : String} (h : IsIdentifier name)
    (helse : ¬ "else".toList <+: name.toList) (hkey : IsIdentifier key) (hfree : key ∉ reserved) :
    read? ("\x7b\x7b" ++ name ++ " " ++ key ++ "\x7d\x7d") =
      some [.expression false (.mk (.word name) [.path ⟨key, [.key key]⟩] [])] := by
  have hsource : "\x7b\x7b" ++ name ++ " " ++ key ++ "\x7d\x7d" =
      String.ofList (openBraces ++ (name.toList ++ ' ' :: key.toList ++ closeBraces)) := by
    apply String.toList_inj.mp
    simp [openBraces, closeBraces]
  have hwords : ∀ known ∈ ["as", "else", "null", "true", "false"], key.toList ≠ known.toList := by
    intro known member heq
    rw [String.toList_inj.mp heq] at hfree
    exact hfree (List.mem_append_left ["this"] member)
  have hthis : String.ofList key.toList ≠ "this" := by
    rw [String.ofList_toList]
    rintro rfl
    exact hfree (by decide)
  rw [hsource, IsWord.read_call h helse hkey hwords hthis]
  simp only [String.ofList_toList]

end

end Source

end Stencil
