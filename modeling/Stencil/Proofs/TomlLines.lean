import Mathlib.Data.List.Forall2
import Stencil.Proofs.Numerals
import Stencil.Proofs.Reading.Combinators
import Stencil.Settings.Toml

/-!
TOML documents of one assignment on each line. A value is read up to the end of
its line and no further, and a document of such lines has one field for each of
them, in their order, as long as no key is given twice. Main statements: how
strings, integers and booleans are written, and what is read of the lines.
-/

namespace Stencil

namespace Toml

open Reader

variable {c : Char} {text word rest : List Char}

/-- The text ends here, or its line does. -/
def EndsLine (rest : List Char) : Prop := rest = [] ∨ ∃ more, rest = '\n' :: more

theorem EndsLine.char_none (h : EndsLine rest) (hc : c ≠ '\n') : char c rest = none := by
  rcases h with rfl | ⟨more, rfl⟩
  · rfl
  · exact char_ne (Ne.symm hc) more

theorem EndsLine.run (h : EndsLine rest) {accepts : Char → Bool}
    (hword : ∀ c ∈ word, accepts c = true) (hline : accepts '\n' = false) :
    Reader.run accepts (word ++ rest) = some (word, rest) := by
  unfold Reader.run
  rw [List.takeWhile_append_of_pos hword, List.dropWhile_append_of_pos hword]
  rcases h with rfl | ⟨more, rfl⟩
  · simp
  · simp [hline]

theorem EndsLine.blanks (h : EndsLine rest) : blanks rest = some ([], rest) :=
  @EndsLine.run [] rest h _ nofun rfl

theorem blanks_none (hspace : c ≠ ' ') (htab : c ≠ '\t') (rest : List Char) :
    blanks (c :: rest) = some ([], c :: rest) := by
  simp [Toml.blanks, Reader.run, hspace, htab]

/-- The text writes the value, wherever it stands at the end of a line. -/
structure Writes (text : List Char) (v : Value) : Prop where
  starts : ∃ c more, text = c :: more ∧ c ≠ ' ' ∧ c ≠ '\t'
  reads : ∀ rest, EndsLine rest → valueWithin maxDepth (text ++ rest) = some (v, rest)

theorem valueWithin_scalar {v : Value} (h : scalar text = some (v, rest)) (depth : Nat) :
    valueWithin depth text = some (v, rest) := by
  cases depth with
  | zero => exact h
  | succ depth => exact orElse_some h

/-- What a scalar without quotes is made of. -/
def isScalarChar (c : Char) : Bool :=
  c.isAlphanum || c == '_' || c == '-' || c == '+' || c == '.' || c == ':'

theorem ne_of_isScalarChar {d : Char} (h : isScalarChar c = true) (hd : isScalarChar d = false) :
    c ≠ d := by
  rintro rfl
  rw [h] at hd
  cases hd

theorem stringValue_none (hdouble : c ≠ '"') (hsingle : c ≠ '\'') (rest : List Char) :
    stringValue (c :: rest) = none := by
  have hchar : ∀ quote : Char, c ≠ quote → char quote (c :: rest) = none := fun quote h =>
    char_ne h rest
  have hmultiline : multilineBasic (c :: rest) = none := bind_none (bind_none (hchar _ hdouble))
  have hbasic : basicString (c :: rest) = none := bind_none (hchar _ hdouble)
  have hmultiline' : multilineLiteral (c :: rest) = none := bind_none (bind_none (hchar _ hsingle))
  have hliteral : literalString (c :: rest) = none := bind_none (hchar _ hsingle)
  exact (orElse_none hmultiline).trans ((orElse_none hbasic).trans
    ((orElse_none hmultiline').trans hliteral))

/-- A scalar without quotes writes what it stands for. -/
theorem Writes.bare {v : Value} (hne : text ≠ []) (hchars : ∀ c ∈ text, isScalarChar c = true)
    (hv : scalar? text = some v) : Writes text v := by
  obtain ⟨c, more, rfl⟩ := List.exists_cons_of_ne_nil hne
  have hc := hchars c List.mem_cons_self
  refine ⟨⟨c, more, rfl, ne_of_isScalarChar hc rfl, ne_of_isScalarChar hc rfl⟩, ?_⟩
  intro rest hrest
  apply valueWithin_scalar
  have hstring : stringValue (c :: more ++ rest) = none :=
    stringValue_none (ne_of_isScalarChar hc rfl) (ne_of_isScalarChar hc rfl) _
  have hrun : Reader.run1 isScalarChar (c :: more ++ rest) = some (c :: more, rest) := by
    have hone : oneOf isScalarChar (c :: (more ++ rest)) = some (c, more ++ rest) := by
      simp [oneOf, hc]
    have hmore := hrest.run (fun d member => hchars d (List.mem_cons_of_mem c member)) rfl
    unfold Reader.run1
    rw [List.cons_append, bind_some hone, bind_some hmore]
    rfl
  have hread : ofOption (scalar? (c :: more)) rest = some (v, rest) := by
    rw [hv]
    rfl
  refine (orElse_none (map_none hstring)).trans ?_
  show (Reader.run1 isScalarChar >>= fun text => _) _ = _
  rw [bind_some hrun]
  split
  · exact (orElse_none (bind_none (hrest.char_none (by decide)))).trans hread
  · exact hread

/-- Text that needs no escapes between double quotes. -/
def IsPlainText (content : List Char) : Prop :=
  ∀ c ∈ content, c ≠ '"' ∧ c ≠ '\\' ∧ isPlain c = true

instance (content : List Char) : Decidable (IsPlainText content) :=
  List.decidableBAll _ content

/-- Plain text in double quotes writes the string of that text. -/
theorem Writes.quoted {content : List Char} (h : IsPlainText content) :
    Writes ('"' :: content ++ ['"']) (.string (String.ofList content)) := by
  refine ⟨⟨'"', content ++ ['"'], rfl, by decide, by decide⟩, ?_⟩
  intro rest hrest
  apply valueWithin_scalar
  have hthree : chars ['"', '"', '"'] ('"' :: content ++ ['"'] ++ rest) = none := by
    cases content with
    | nil =>
        refine (bind_some (char_self '"' _)).trans ((bind_some (char_self '"' _)).trans ?_)
        exact bind_none (hrest.char_none (by decide))
    | cons c more =>
        obtain ⟨hquote, _⟩ := h c List.mem_cons_self
        exact (bind_some (char_self '"' _)).trans (bind_none (char_ne hquote _))
  have hchar : ∀ c ∈ content, ∀ after, basicChar (c :: after) = some (c, after) := by
    intro c member after
    obtain ⟨hquote, hslash, hplain⟩ := h c member
    have hone : oneOf (fun c => c != '"' && isPlain c) (c :: after) = some (c, after) := by
      simp [oneOf, hquote, hplain]
    unfold basicChar
    rw [bind_some hone, if_neg hslash]
    rfl
  have hstop : basicChar ('"' :: rest) = none := rfl
  have hmany := (Takes.word id hchar).many hstop
  have hbasic : basicString ('"' :: content ++ ['"'] ++ rest) =
      some (String.ofList content, rest) := by
    unfold basicString
    simp only [List.cons_append, List.append_assoc, List.nil_append]
    rw [bind_some (char_self _ _), bind_some hmany, List.map_id, bind_some (char_self _ _)]
    rfl
  exact orElse_some (map_some ((orElse_none (bind_none hthree)).trans (orElse_some hbasic)))

theorem ungroup?_digits (hne : text ≠ []) (hdigits : ∀ c ∈ text, c.isDigit = true) :
    ungroup? Char.isDigit text = some text := by
  induction text with
  | nil => exact absurd rfl hne
  | cons c more ih =>
      have hc := hdigits c List.mem_cons_self
      cases more with
      | nil => simp [ungroup?, hc]
      | cons d more =>
          have hd := hdigits d (by simp)
          have hrest := ih (by simp) fun e member => hdigits e (List.mem_cons_of_mem c member)
          have hline : d ≠ '_' := by
            rintro rfl
            cases hd
          rw [ungroup?, if_pos hc, hrest]
          · rfl
          · simp
          · intro _ h
            exact hline (List.cons.inj h).1

theorem wholeDigits?_toDigits (n : Nat) :
    wholeDigits? (Nat.toDigits 10 n) = some (Nat.toDigits 10 n) := by
  have hdigits : ∀ c ∈ Nat.toDigits 10 n, c.isDigit = true := fun c =>
    Nat.isDigit_of_mem_toDigits (by decide) (by decide)
  have hzero : ¬ ((Nat.toDigits 10 n).length > 1 ∧ (Nat.toDigits 10 n).head? = some '0') := by
    rintro ⟨hlength, hhead⟩
    cases n with
    | zero => simp at hlength
    | succ n => exact Text.head?_toDigits (Nat.succ_pos n) hhead
  rw [wholeDigits?, ungroup?_digits Nat.toDigits_ne_nil hdigits]
  exact if_neg hzero

/-- What starts with a digit or a minus sign is no word. -/
theorem scalar?_cons (ht : c ≠ 't') (hf : c ≠ 'f') (rest : List Char) :
    scalar? (c :: rest) = (integer? (c :: rest) <|> float? (c :: rest) <|> date? (c :: rest)) := by
  have htrue : c :: rest ≠ "true".toList := fun h => ht (List.cons.inj h).1
  have hfalse : c :: rest ≠ "false".toList := fun h => hf (List.cons.inj h).1
  rw [scalar?, if_neg htrue, if_neg hfalse]

theorem ne_of_isDigit {d : Char} (h : c.isDigit = true) (hd : d.isDigit = false) : c ≠ d := by
  rintro rfl
  rw [h] at hd
  cases hd

theorem integer?_toDigits (n : Nat) : integer? (Nat.toDigits 10 n) = wideInteger? n := by
  have hdigits : ∀ c ∈ Nat.toDigits 10 n, c.isDigit = true := fun c =>
    Nat.isDigit_of_mem_toDigits (by decide) (by decide)
  have hwhole := wholeDigits?_toDigits n
  have hvalue := Text.digitsValue_toDigits n
  have hne : Nat.toDigits 10 n ≠ [] := Nat.toDigits_ne_nil
  generalize Nat.toDigits 10 n = digits at hdigits hwhole hvalue hne
  obtain ⟨c, rest, rfl⟩ := List.exists_cons_of_ne_nil hne
  have hsigned : signed (c :: rest) = (false, c :: rest) := by
    unfold signed
    split
    · exact absurd (hdigits '-' (by simp_all)) (by decide)
    · exact absurd (hdigits '+' (by simp_all)) (by decide)
    · rfl
  unfold integer?
  split
  case h_4 =>
    simp only [hsigned, hwhole, hvalue]
    rfl
  all_goals
    rename_i heq
    obtain ⟨-, rfl⟩ := List.cons.inj heq
    exact absurd (hdigits _ (List.mem_cons_of_mem _ List.mem_cons_self)) (by decide)

theorem integer?_negative (n : Nat) :
    integer? ('-' :: Nat.toDigits 10 n) = wideInteger? (-(n : Int)) := by
  have hwhole := wholeDigits?_toDigits n
  have hvalue := Text.digitsValue_toDigits n
  have hsigned : signed ('-' :: Nat.toDigits 10 n) = (true, Nat.toDigits 10 n) := rfl
  unfold integer?
  simp only [hsigned, hwhole, hvalue, if_true]
  rfl

theorem isScalarChar_toDigits {n : Nat} : ∀ c ∈ Nat.toDigits 10 n, isScalarChar c = true := by
  intro c member
  have hdigit : c.isDigit = true := Nat.isDigit_of_mem_toDigits (by decide) (by decide) member
  simp [isScalarChar, Char.isAlphanum, hdigit]

/-- The numeral of a natural number writes that number. -/
theorem Writes.numeral {n : Nat} (h : n < Nat.pow 2 128) :
    Writes (Nat.toDigits 10 n) (.integer n) := by
  apply Writes.bare Nat.toDigits_ne_nil isScalarChar_toDigits
  have hdigits : ∀ c ∈ Nat.toDigits 10 n, c.isDigit = true := fun c =>
    Nat.isDigit_of_mem_toDigits (by decide) (by decide)
  have hinteger := integer?_toDigits n
  obtain ⟨c, rest, hcons⟩ := List.exists_cons_of_ne_nil (@Nat.toDigits_ne_nil n 10)
  rw [hcons] at hdigits hinteger ⊢
  have hc := hdigits c List.mem_cons_self
  rw [scalar?_cons (ne_of_isDigit hc (by decide)) (ne_of_isDigit hc (by decide)), hinteger]
  have hwide : wideInteger? n = some (.integer n) := if_pos (by omega)
  rw [hwide]
  rfl

/-- The numeral after a minus sign writes the negative number. -/
theorem Writes.negative {n : Nat} (h : n ≤ Nat.pow 2 127) :
    Writes ('-' :: Nat.toDigits 10 n) (.integer (-(n : Int))) := by
  apply Writes.bare (by simp)
  · intro c member
    rcases List.mem_cons.mp member with rfl | member
    · rfl
    · exact isScalarChar_toDigits c member
  · have hpositive : 0 < Nat.pow 2 128 := by decide
    have hwide : wideInteger? (-(n : Int)) = some (.integer (-(n : Int))) := if_pos (by omega)
    rw [scalar?_cons (by decide) (by decide), integer?_negative, hwide]
    rfl

theorem Writes.boolean (b : Bool) :
    Writes (if b then "true".toList else "false".toList) (.boolean b) := by
  cases b
  · exact .bare (by decide) (List.all_eq_true.mp rfl) rfl
  · exact .bare (by decide) (List.all_eq_true.mp rfl) rfl

/-! Lines -/

def IsBareKey (key : String) : Prop := key.toList ≠ [] ∧ ∀ c ∈ key.toList, isBareKeyChar c = true

instance (key : String) : Decidable (IsBareKey key) :=
  have : Decidable (∀ c ∈ key.toList, isBareKeyChar c = true) :=
    List.decidableBAll _ key.toList
  inferInstanceAs (Decidable (_ ∧ _))

/-- The line gives the value to the key. -/
structure Assigns (line : String) (field : String × Value) : Prop where
  key : IsBareKey field.1
  written : ∃ text, Writes text field.2 ∧ line = field.1 ++ " = " ++ String.ofList text

theorem ne_of_isBareKeyChar {d : Char} (h : isBareKeyChar c = true)
    (hd : isBareKeyChar d = false) : c ≠ d := by
  rintro rfl
  rw [h] at hd
  cases hd

theorem IsBareKey.simpleKey {key : String} (h : IsBareKey key) (hrest : isBareKeyChar c = false) :
    simpleKey (key.toList ++ c :: rest) = some (key, c :: rest) := by
  obtain ⟨hne, hchars⟩ := h
  have hstring : String.ofList key.toList = key := String.ofList_toList
  generalize key.toList = word at hne hchars hstring
  obtain ⟨first, more, rfl⟩ := List.exists_cons_of_ne_nil hne
  have hrun : Reader.run1 isBareKeyChar (first :: more ++ c :: rest) =
      some (first :: more, c :: rest) :=
    run1_word (hchars first List.mem_cons_self)
      (fun d member => hchars d (List.mem_cons_of_mem first member)) hrest rest
  rw [← hstring]
  exact orElse_some (map_some hrun)

theorem assignment_run {key : String} {v : Value} (hkey : IsBareKey key) (hv : Writes text v)
    (hrest : EndsLine rest) :
    assignment (blanks *> pure ()) (valueWithin maxDepth)
      (key.toList ++ ' ' :: '=' :: ' ' :: (text ++ rest)) = some (([key], v), rest) := by
  obtain ⟨c, more, rfl, hspace, htab⟩ := hv.starts
  have hblank : ∀ d after, d ≠ ' ' → d ≠ '\t' →
      blanks (' ' :: d :: after) = some ([' '], d :: after) := by
    intro d after hspace htab
    simp [Toml.blanks, Reader.run, hspace, htab]
  have hequals := hblank '=' (' ' :: (c :: more ++ rest)) (by decide) (by decide)
  have hdotted : dottedKey (key.toList ++ ' ' :: '=' :: ' ' :: (c :: more ++ rest)) =
      some ([key], ' ' :: '=' :: ' ' :: (c :: more ++ rest)) := by
    have hmore : (blanks *> char '.' *> blanks *> simpleKey)
        (' ' :: '=' :: ' ' :: (c :: more ++ rest)) = none :=
      then_none (then_none ((then_some hequals).trans (char_ne (by decide) _)))
    unfold dottedKey
    rw [bind_some (hkey.simpleKey rfl), bind_some (many_none hmore)]
    rfl
  have hgap : ∀ d after, d ≠ ' ' → d ≠ '\t' →
      (blanks *> pure () : Reader Unit) (' ' :: d :: after) = some ((), d :: after) := by
    intro d after hspace htab
    rw [then_some (hblank d after hspace htab)]
    rfl
  unfold assignment
  rw [bind_some hdotted, bind_some (hgap _ _ (by decide) (by decide)),
    bind_some (char_self '=' _), List.cons_append, bind_some (hgap _ _ hspace htab),
    ← List.cons_append, bind_some (hv.reads rest hrest)]
  rfl

/-- A line that gives a value to a key is read to its end. -/
theorem Assigns.line {line : String} {field : String × Value} (h : Assigns line field)
    (hrest : EndsLine rest) :
    Toml.line (line.toList ++ rest) = some (some (.assignment [field.1] field.2), rest) := by
  obtain ⟨key, v⟩ := field
  obtain ⟨hkey, text, hv, rfl⟩ := h
  have htext : (key ++ " = " ++ String.ofList text).toList ++ rest =
      key.toList ++ ' ' :: '=' :: ' ' :: (text ++ rest) := by
    simp
  have hassignment := assignment_run hkey hv hrest
  rw [htext]
  generalize hall : key.toList ++ ' ' :: '=' :: ' ' :: (text ++ rest) = all at hassignment
  obtain ⟨first, more, hfirst⟩ := List.exists_cons_of_ne_nil hkey.1
  have hc := hkey.2 first (by rw [hfirst]; exact List.mem_cons_self)
  obtain ⟨left, rfl⟩ : ∃ left, all = first :: left := by
    rw [← hall, hfirst]
    exact ⟨_, rfl⟩
  have hbracket : char '[' (first :: left) = none := char_ne (ne_of_isBareKeyChar hc rfl) left
  have hblanks : blanks (first :: left) = some ([], first :: left) :=
    blanks_none (ne_of_isBareKeyChar hc rfl) (ne_of_isBareKeyChar hc rfl) left
  have hcomment : maybe comment rest = some (none, rest) :=
    maybe_none (bind_none (hrest.char_none (by decide)))
  have hend : (blanks >>= fun _ => maybe comment >>= fun _ => pure
      (some (Line.assignment [key] v))) rest = some (some (.assignment [key] v), rest) := by
    rw [bind_some hrest.blanks, bind_some hcomment]
    rfl
  unfold Toml.line
  rw [bind_some hblanks]
  refine (bind_some (orElse_some (map_some ?_))).trans hend
  refine (orElse_none (bind_none (bind_none hbracket))).trans ?_
  exact (orElse_none (bind_none hbracket)).trans (map_some hassignment)

/-- The text of a document with these lines. -/
def ofLines (lines : List String) : String := String.join (lines.map (· ++ "\n"))

/-- The lines after a line end are read up to the end of the document. -/
theorem many_lines {lines : List String} {fields : List (String × Value)}
    (h : List.Forall₂ Assigns lines fields) :
    many (newline *> line) ('\n' :: (ofLines lines).toList) =
      some (fields.map (fun field => some (.assignment [field.1] field.2)) ++ [none], []) := by
  have hnewline : ∀ after, (newline *> line) ('\n' :: after) = line after := fun after =>
    then_some ((then_some (maybe_none (char_ne (by decide) _))).trans (char_self '\n' after))
  have hcons : ∀ line lines, ('\n' :: (ofLines (line :: lines)).toList) =
      '\n' :: (line.toList ++ '\n' :: (ofLines lines).toList) := by
    intro line lines
    simp [ofLines, String.toList_join]
  -- Every line takes one character at least, so there is fuel enough for each.
  suffices hgo : ∀ fuel, lines.length < fuel →
      many.go (newline *> line) fuel ('\n' :: (ofLines lines).toList) =
        some (fields.map (fun field => some (.assignment [field.1] field.2)) ++ [none], []) by
    apply hgo
    clear hgo
    induction h with
    | nil => simp
    | cons first others ih =>
        rw [hcons]
        simp only [List.length_cons, List.length_append] at ih ⊢
        omega
  induction h with
  | nil =>
      intro fuel hfuel
      obtain ⟨fuel, rfl⟩ := Nat.exists_eq_succ_of_ne_zero (Nat.ne_of_gt hfuel)
      have hlast : (newline *> line) ('\n' :: (ofLines []).toList) = some (none, []) :=
        hnewline []
      have hstop : many.go (newline *> line) fuel [] = some ([], []) := by
        cases fuel <;> rfl
      simp only [many.go, hlast, hstop]
      rfl
  | cons first others ih =>
      rename_i line field lines fields
      intro fuel hfuel
      obtain ⟨fuel, rfl⟩ := Nat.exists_eq_succ_of_ne_zero (Nat.ne_of_gt (Nat.zero_lt_of_lt hfuel))
      have hread : (newline *> Toml.line) ('\n' :: (ofLines (line :: lines)).toList) =
          some (some (.assignment [field.1] field.2), '\n' :: (ofLines lines).toList) := by
        rw [hcons, hnewline]
        exact first.line (.inr ⟨_, rfl⟩)
      have hrest := ih fuel (by simpa using hfuel)
      simp only [many.go, hread, hrest]
      rfl

theorem document_lines {lines : List String} {fields : List (String × Value)}
    (h : List.Forall₂ Assigns lines fields) :
    readAll? document (ofLines lines).toList =
      some (fields.map fun field => .assignment [field.1] field.2) := by
  have hread : document (ofLines lines).toList =
      some (fields.map fun field => .assignment [field.1] field.2, []) := by
    cases h with
    | nil => rfl
    | cons first others =>
        rename_i line field lines fields
        have hcons : (ofLines (line :: lines)).toList =
            line.toList ++ '\n' :: (ofLines lines).toList := by
          simp [ofLines, String.toList_join]
        have hfirst := first.line (.inr ⟨(ofLines lines).toList, rfl⟩)
        have hrest := many_lines others
        -- A document may start with a mark of the byte order, but a key does not.
        have hmark : maybe (char '\ufeff') (ofLines (line :: lines)).toList =
            some (none, (ofLines (line :: lines)).toList) := by
          obtain ⟨hkey, text, _, rfl⟩ := first
          obtain ⟨c, more, hc⟩ := List.exists_cons_of_ne_nil hkey.1
          have hbare := hkey.2 c (by rw [hc]; exact List.mem_cons_self)
          rw [hcons]
          simp only [String.toList_append, hc, List.cons_append]
          exact maybe_none (char_ne (ne_of_isBareKeyChar hbare rfl) _)
        unfold document
        rw [bind_some hmark, hcons, bind_some hfirst, bind_some hrest]
        show some (_, _) = some (_, _)
        simp [List.filterMap_append, List.filterMap_map]
  simp only [readAll?, hread]

theorem closeAll_values (fields : List (String × Value)) :
    closeAll (fields.map fun field => (field.1, .value field.2)) = fields := by
  induction fields with
  | nil => rfl
  | cons field rest ih => simp [closeAll, Entry.close, ih]

/-- Assignments of different keys are all kept, in their order. -/
theorem foldlM_assignments {fields : List (String × Value)} {root : Entries}
    (h : (root.map Prod.fst ++ fields.map Prod.fst).Nodup) :
    (fields.map fun field => Line.assignment [field.1] field.2).foldlM Draft.add ⟨root, []⟩ =
      some ⟨root ++ fields.map fun field => (field.1, .value field.2), []⟩ := by
  induction fields generalizing root with
  | nil => simp
  | cons field rest ih =>
      have hfresh : field? field.1 root = none := by
        rw [← Option.not_isSome_iff_eq_none, isSome_field?_iff]
        intro member
        exact (List.nodup_append.mp h).2.2 _ member _ List.mem_cons_self rfl
      have hadd : Draft.add ⟨root, []⟩ (.assignment [field.1] field.2) =
          some ⟨root ++ [(field.1, .value field.2)], []⟩ := by
        simp [Draft.add, Entries.at?, Entries.assign, hfresh]
      have hrest := @ih (root ++ [(field.1, .value field.2)]) (by simpa using h)
      rw [List.map_cons, List.foldlM_cons, hadd]
      show List.foldlM _ _ _ = _
      rw [hrest]
      simp

/-- A document of lines that each give a value to a key of their own has these
fields. -/
theorem read_lines {lines : List String} {fields : List (String × Value)}
    (h : List.Forall₂ Assigns lines fields) (hkeys : (fields.map Prod.fst).Nodup) :
    read? (ofLines lines) = some fields := by
  have hfold := @foldlM_assignments fields [] (by simpa using hkeys)
  simp only [read?, document_lines h, Option.bind_some, documentOf?, Draft.empty, hfold,
    Option.map_some, List.nil_append, closeAll_values]

end Toml

end Stencil
