import Stencil.Text.Reader

/-!
What readers give. A reader that is made of others gives what they give, and a
word is taken as far as its letters go: what stands after it is no letter, so
nothing more is taken and nothing less.
-/

namespace Stencil

namespace Reader

variable {α β : Type} {reader : Reader α} {text rest : List Char}

theorem bind_some {next : α → Reader β} {a : α} (h : reader text = some (a, rest)) :
    (reader >>= next) text = next a rest := by
  simp only [bind, h]

theorem bind_none {next : α → Reader β} (h : reader text = none) :
    (reader >>= next) text = none := by
  simp only [bind, h]

theorem bind_eq_some_iff {next : α → Reader β} {b : β} :
    (reader >>= next) text = some (b, rest) ↔
      ∃ a middle, reader text = some (a, middle) ∧ next a middle = some (b, rest) := by
  constructor
  · intro h
    cases hfirst : reader text with
    | none =>
        rw [bind_none hfirst] at h
        cases h
    | some result =>
        rw [bind_some hfirst] at h
        exact ⟨result.1, result.2, rfl, h⟩
  · rintro ⟨a, middle, hfirst, hnext⟩
    rw [bind_some hfirst]
    exact hnext

theorem map_some {f : α → β} {a : α} (h : reader text = some (a, rest)) :
    (f <$> reader) text = some (f a, rest) :=
  bind_some h

theorem map_none {f : α → β} (h : reader text = none) : (f <$> reader) text = none :=
  bind_none h

theorem then_some {next : Reader β} {a : α} (h : reader text = some (a, rest)) :
    (reader *> next) text = next rest :=
  bind_some h

theorem then_none {next : Reader β} (h : reader text = none) : (reader *> next) text = none :=
  bind_none h

theorem orElse_some {other : Reader α} {a : α} (h : reader text = some (a, rest)) :
    (reader <|> other) text = some (a, rest) := by
  simp only [HOrElse.hOrElse, OrElse.orElse, Alternative.orElse, h]

theorem orElse_none {other : Reader α} (h : reader text = none) :
    (reader <|> other) text = other text := by
  simp only [HOrElse.hOrElse, OrElse.orElse, Alternative.orElse, h]

theorem maybe_none (h : reader text = none) : maybe reader text = some (none, text) :=
  orElse_none (map_none h)

theorem notAhead_none (h : reader text = none) : notAhead reader text = some ((), text) := by
  simp [notAhead, h]

/-- A run of a class takes a word of the class that something else follows. -/
theorem run_word {accepts : Char → Bool} {word : List Char} {marker : Char}
    (hword : ∀ c ∈ word, accepts c = true) (hmarker : accepts marker = false) (rest : List Char) :
    run accepts (word ++ marker :: rest) = some (word, marker :: rest) := by
  unfold run
  rw [List.takeWhile_append_of_pos hword, List.dropWhile_append_of_pos hword]
  simp [hmarker]

theorem run1_word {accepts : Char → Bool} {first : Char} {word : List Char} {marker : Char}
    (hfirst : accepts first = true) (hword : ∀ c ∈ word, accepts c = true)
    (hmarker : accepts marker = false) (rest : List Char) :
    run1 accepts (first :: word ++ marker :: rest) = some (first :: word, marker :: rest) := by
  have hone : oneOf accepts (first :: (word ++ marker :: rest)) =
      some (first, word ++ marker :: rest) := by simp [oneOf, hfirst]
  unfold run1
  rw [List.cons_append, bind_some hone, bind_some (run_word hword hmarker rest)]
  rfl

theorem many_none (h : reader text = none) : many reader text = some ([], text) := by
  unfold many
  cases text with
  | nil => rfl
  | cons c text => simp [many.go, h]

theorem many1_one {a : α} (h : reader text = some (a, rest)) (hstop : reader rest = none) :
    many1 reader text = some ([a], rest) := by
  unfold many1
  rw [bind_some h, bind_some (many_none hstop)]
  rfl

/-- Two things are taken where nothing follows the second one. -/
theorem many1_two {a b : α} {c : Char} {middle : List Char}
    (h : reader text = some (a, c :: middle)) (hnext : reader (c :: middle) = some (b, rest))
    (hstop : reader rest = none) : many1 reader text = some ([a, b], rest) := by
  have hmany : many reader (c :: middle) = some ([b], rest) := by
    unfold many
    cases middle with
    | nil => simp [many.go, hnext]
    | cons d middle => simp [many.go, hnext, hstop]
  unfold many1
  rw [bind_some h, bind_some hmany]
  rfl

theorem char_ne {c d : Char} (h : d ≠ c) (text : List Char) : char c (d :: text) = none := by
  simp [char, h]

theorem char_self (c : Char) (text : List Char) : char c (c :: text) = some ((), text) := by
  simp [char]

theorem char_eq_some_iff {c : Char} {result : Unit} :
    char c text = some (result, rest) ↔ text = c :: rest := by
  cases text with
  | nil => exact ⟨nofun, nofun⟩
  | cons d text =>
      by_cases hd : d = c
      · subst hd
        simp [char_self]
      · simp [char_ne hd, hd]

theorem oneOf_eq_some_iff {accepts : Char → Bool} {c : Char} :
    oneOf accepts text = some (c, rest) ↔ text = c :: rest ∧ accepts c = true := by
  cases text with
  | nil => exact ⟨nofun, nofun⟩
  | cons d text =>
      by_cases hd : accepts d = true
      · simp only [oneOf, hd, if_true, Option.some.injEq, Prod.mk.injEq, List.cons.injEq]
        constructor
        · rintro ⟨rfl, rfl⟩
          exact ⟨⟨rfl, rfl⟩, hd⟩
        · exact fun h => h.1
      · simp only [oneOf, hd, Bool.false_eq_true, if_false, List.cons.injEq]
        constructor
        · nofun
        · rintro ⟨⟨rfl, -⟩, hc⟩
          exact absurd hc hd

theorem ofOption_eq_some_iff {found : Option α} {a : α} :
    ofOption found text = some (a, rest) ↔ rest = text ∧ found = some a := by
  cases found with
  | none => exact ⟨nofun, nofun⟩
  | some b =>
      constructor
      · rintro ⟨⟩
        exact ⟨rfl, rfl⟩
      · rintro ⟨rfl, ⟨⟩⟩
        rfl

theorem withTaken_eq_some_iff {result : α × List Char} :
    withTaken reader text = some (result, rest) ↔
      reader text = some (result.1, rest) ∧
        result.2 = text.take (text.length - rest.length) := by
  unfold withTaken
  cases reader text with
  | none => simp
  | some found =>
      obtain ⟨a, taken⟩ := result
      constructor
      · rintro ⟨⟩
        exact ⟨rfl, rfl⟩
      · rintro ⟨⟨⟩, rfl⟩
        rfl

theorem chars_eq_some_iff {cs : List Char} {result : Unit} :
    chars cs text = some (result, rest) ↔ text = cs ++ rest := by
  induction cs generalizing text with
  | nil =>
      constructor
      · rintro ⟨⟩
        rfl
      · rintro rfl
        rfl
  | cons c cs ih =>
      cases text with
      | nil =>
          rw [chars, bind_none rfl]
          simp
      | cons d text =>
          by_cases hd : d = c
          · subst hd
            rw [chars, bind_some (char_self d text), ih]
            simp
          · rw [chars, bind_none (char_ne hd text)]
            simp [hd]

/-- Letters at the front of a word that something else follows, which is not
among them, are the front of that word. -/
theorem word_of_word {letters : String} {word : List Char} {marker : Char} {left : List Char}
    {result : Unit} (hmarker : marker ∉ letters.toList)
    (h : Reader.word letters (word ++ marker :: rest) = some (result, left)) :
    ∃ more, word = letters.toList ++ more ∧ left = more ++ marker :: rest := by
  have hsame := chars_eq_some_iff.mp h
  rcases List.append_eq_append_iff.mp hsame with ⟨more, hletters, hleft⟩ | ⟨more, hword, hleft⟩
  · cases more with
    | nil => exact ⟨[], by simpa using hletters.symm, by simpa using hleft.symm⟩
    | cons c more =>
        obtain ⟨rfl, -⟩ := List.cons.inj hleft
        exact absurd (by simp [hletters]) hmarker
  · exact ⟨more, hword, hleft⟩

/-- What the reader takes, it takes whatever comes after. -/
def Local (reader : Reader α) : Prop :=
  ∀ text a rest, reader text = some (a, rest) →
    ∃ piece, text = piece ++ rest ∧ ∀ after, reader (piece ++ after) = some (a, after)

namespace Local

theorem pure (a : α) : Local (pure a : Reader α) := by
  rintro text _ _ ⟨⟩
  exact ⟨[], rfl, fun _ => rfl⟩

theorem failure : Local (failure : Reader α) := nofun

theorem oneOf (accepts : Char → Bool) : Local (oneOf accepts) := by
  intro text c rest h
  obtain ⟨rfl, hc⟩ := oneOf_eq_some_iff.mp h
  exact ⟨[c], rfl, fun after => oneOf_eq_some_iff.mpr ⟨rfl, hc⟩⟩

theorem char (c : Char) : Local (char c) := by
  intro text _ rest h
  obtain rfl := char_eq_some_iff.mp h
  exact ⟨[c], rfl, fun after => char_self c after⟩

theorem ofOption (found : Option α) : Local (ofOption found) := by
  cases found with
  | none => exact failure
  | some a => exact pure a

theorem bind {next : α → Reader β} (h : Local reader) (hnext : ∀ a, Local (next a)) :
    Local (reader >>= next) := by
  intro text b rest hread
  obtain ⟨a, middle, hfirst, hsecond⟩ := bind_eq_some_iff.mp hread
  obtain ⟨piece, rfl, hpiece⟩ := h _ _ _ hfirst
  obtain ⟨more, rfl, hmore⟩ := hnext a _ _ _ hsecond
  refine ⟨piece ++ more, by simp, fun after => ?_⟩
  rw [List.append_assoc, bind_some (hpiece _)]
  exact hmore after

end Local

/-- What the reader leaves is the end of what it was given. -/
def Leaves (reader : Reader α) : Prop :=
  ∀ text a rest, reader text = some (a, rest) → rest <:+ text

namespace Leaves

theorem of_local (h : Local reader) : Leaves reader := by
  intro text a rest hread
  obtain ⟨piece, rfl, -⟩ := h text a rest hread
  exact List.suffix_append piece rest

theorem bind {next : α → Reader β} (h : Leaves reader) (hnext : ∀ a, Leaves (next a)) :
    Leaves (reader >>= next) := by
  intro text b rest hread
  obtain ⟨a, middle, hfirst, hsecond⟩ := bind_eq_some_iff.mp hread
  exact (hnext a _ _ _ hsecond).trans (h _ _ _ hfirst)

theorem next {other : Reader β} (h : Leaves reader) (hother : Leaves other) :
    Leaves (reader *> other) :=
  h.bind fun _ => hother

theorem orElse {other : Reader α} (h : Leaves reader) (hother : Leaves other) :
    Leaves (reader <|> other) := by
  intro text a rest hread
  cases hfirst : reader text with
  | none =>
      rw [orElse_none hfirst] at hread
      exact hother _ _ _ hread
  | some result =>
      rw [orElse_some hfirst] at hread
      cases hread
      exact h _ _ _ hfirst

theorem many (h : Leaves reader) : Leaves (many reader) := by
  suffices hgo : ∀ fuel, Leaves (many.go reader fuel) from fun text => hgo _ text
  intro fuel
  induction fuel with
  | zero =>
      rintro text _ _ ⟨⟩
      exact List.suffix_rfl
  | succ fuel ih =>
      intro text values rest hread
      cases hfirst : reader text with
      | none =>
          simp only [many.go, hfirst, Option.some.injEq, Prod.mk.injEq] at hread
          obtain ⟨-, rfl⟩ := hread
          exact List.suffix_rfl
      | some result =>
          obtain ⟨a, middle⟩ := result
          simp only [many.go, hfirst, Option.map_eq_some_iff] at hread
          obtain ⟨⟨others, left⟩, hothers, heq⟩ := hread
          obtain ⟨rfl, rfl⟩ := Prod.mk.inj heq
          exact (ih _ _ _ hothers).trans (h _ _ _ hfirst)

end Leaves

/-- The text is made of pieces, each of which the reader takes as one value,
whatever comes after. -/
inductive Takes (reader : Reader α) : List Char → List α → Prop
  | nil : Takes reader [] []
  | cons {c : Char} {piece pieces : List Char} {a : α} {values : List α}
      (first : ∀ after, reader (c :: piece ++ after) = some (a, after))
      (others : Takes reader pieces values) : Takes reader (c :: piece ++ pieces) (a :: values)

theorem Takes.one {c : Char} {piece : List Char} {a : α}
    (h : ∀ after, reader (c :: piece ++ after) = some (a, after)) :
    Takes reader (c :: piece) [a] := by
  simpa using Takes.cons h .nil

/-- A reader of single characters takes a word of them. -/
theorem Takes.word (value : Char → α) {word : List Char}
    (hword : ∀ c ∈ word, ∀ after, reader (c :: after) = some (value c, after)) :
    Takes reader word (word.map value) := by
  induction word with
  | nil => exact .nil
  | cons c word ih =>
      have hrest := ih fun other member => hword other (List.mem_cons_of_mem c member)
      have hfirst : ∀ after, reader ([c] ++ after) = some (value c, after) :=
        hword c List.mem_cons_self
      exact .cons hfirst hrest

theorem Takes.append {pieces more : List Char} {values others : List α}
    (h : Takes reader pieces values) (hmore : Takes reader more others) :
    Takes reader (pieces ++ more) (values ++ others) := by
  induction h with
  | nil => exact hmore
  | cons first _ ih =>
      rw [List.append_assoc]
      exact .cons first ih

/-- Such a text is taken as a whole, up to where the reader refuses. -/
theorem Takes.many {pieces : List Char} {values : List α} (h : Takes reader pieces values)
    (hstop : reader rest = none) : many reader (pieces ++ rest) = some (values, rest) := by
  suffices hgo : ∀ fuel, pieces.length ≤ fuel →
      many.go reader fuel (pieces ++ rest) = some (values, rest) from hgo _ (by simp)
  induction h with
  | nil =>
      intro fuel _
      cases fuel with
      | zero => rfl
      | succ fuel => simp [many.go, hstop]
  | cons first _ ih =>
      intro fuel hfuel
      simp only [List.cons_append, List.length_cons, List.length_append] at hfuel
      obtain ⟨fuel, rfl⟩ := Nat.exists_eq_succ_of_ne_zero (Nat.ne_of_gt (Nat.zero_lt_of_lt hfuel))
      have hrest := ih fuel (by omega)
      rw [List.append_assoc]
      simp only [many.go, first _, hrest]
      rfl

/-- What is taken as a whole is made of such pieces. -/
theorem Local.takes (h : Local reader) (hempty : reader [] = none)
    {values : List α} (hread : many reader text = some (values, rest)) :
    ∃ pieces, text = pieces ++ rest ∧ Takes reader pieces values := by
  suffices hgo : ∀ fuel text values, many.go reader fuel text = some (values, rest) →
      ∃ pieces, text = pieces ++ rest ∧ Takes reader pieces values from hgo _ _ _ hread
  intro fuel
  induction fuel with
  | zero =>
      intro text values hgo
      obtain ⟨rfl, rfl⟩ := Prod.mk.inj (Option.some.inj hgo)
      exact ⟨[], rfl, .nil⟩
  | succ fuel ih =>
      intro text values hgo
      cases hfirst : reader text with
      | none =>
          simp only [many.go, hfirst, Option.some.injEq, Prod.mk.injEq] at hgo
          obtain ⟨rfl, rfl⟩ := hgo
          exact ⟨[], rfl, .nil⟩
      | some result =>
          obtain ⟨a, middle⟩ := result
          simp only [many.go, hfirst, Option.map_eq_some_iff] at hgo
          obtain ⟨⟨others, left⟩, hothers, heq⟩ := hgo
          obtain ⟨rfl, rfl⟩ := Prod.mk.inj heq
          obtain ⟨piece, rfl, hpiece⟩ := h _ _ _ hfirst
          obtain ⟨pieces, rfl, htakes⟩ := ih _ _ hothers
          cases piece with
          | nil =>
              have hnothing := hpiece []
              rw [List.append_nil, hempty] at hnothing
              cases hnothing
          | cons c piece => exact ⟨c :: piece ++ pieces, by simp, .cons hpiece htakes⟩

end Reader

end Stencil
