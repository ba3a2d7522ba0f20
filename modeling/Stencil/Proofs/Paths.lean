import Stencil.Proofs.Numerals
import Stencil.Value

/-!
Paths. The keys of a path are what stands between its dots, as far as that is not
empty, and looking up a path is looking for one key after another. So a path that
was put together from two leads on from where the first one led. Main statement:
how look-ups are put together, and which keys select an element of an array.
-/

namespace Stencil.Value

theorem splitDots_eq_splitOn (path : List Char) : splitDots path = path.splitOn '.' := by
  induction path with
  | nil => rfl
  | cons c rest ih =>
      rw [List.splitOn] at ih ⊢
      rw [List.splitOnP_cons_eq_if_modifyHead, ← ih]
      by_cases hc : c = '.'
      · simp [splitDots, hc]
      · simp only [splitDots, hc, if_false, beq_iff_eq]
        cases hrest : splitDots rest with
        | nil => exact absurd (ih ▸ hrest) (List.splitOnP_ne_nil _ _)
        | cons piece pieces => rfl

/-- The keys of a path are the pieces between dots that are not empty. -/
theorem keys_eq (path : String) :
    keys path = ((path.toList.splitOn '.').filter (· ≠ [])).map String.ofList := by
  rw [keys, splitDots_eq_splitOn]

theorem keys_append (p q : String) : keys (p ++ "." ++ q) = keys p ++ keys q := by
  have hlist : (p ++ "." ++ q).toList = p.toList ++ '.' :: q.toList := by
    simp [String.toList_append]
  have hsplit : (p.toList ++ '.' :: q.toList).splitOn '.' =
      p.toList.splitOn '.' ++ q.toList.splitOn '.' :=
    List.splitOnP_append_cons _ _ (beq_self_eq_true '.')
  rw [keys_eq, keys_eq, keys_eq, hlist, hsplit, List.filter_append, List.map_append]

/-- Pieces without dots, put together with dots, have the keys that they are. -/
theorem keys_intercalate {pieces : List String} (h : ∀ piece ∈ pieces, '.' ∉ piece.toList) :
    keys (".".intercalate pieces) = pieces.filter (· ≠ "") := by
  cases hpieces : pieces with
  | nil => rfl
  | cons first rest =>
      rw [← hpieces]
      have hne : pieces.map String.toList ≠ [] := by simp [hpieces]
      have hdots : ∀ piece ∈ pieces.map String.toList, '.' ∉ piece := by
        intro piece member
        obtain ⟨s, hs, rfl⟩ := List.mem_map.mp member
        exact h s hs
      have hdot : ".".toList = ['.'] := rfl
      rw [keys_eq, String.toList_intercalate, hdot, List.splitOn_intercalate '.' hdots hne,
        List.filter_map, List.map_map]
      simp [Function.comp_def, String.toList_eq_nil_iff]

theorem lookup?_append (v : Value) (p q : String) :
    v.lookup? (p ++ "." ++ q) = (v.lookup? p).bind fun found => found.lookup? q := by
  rw [lookup?, keys_append, List.foldlM_append]
  rfl

/-- The key writes the index: with decimal digits, behind one plus sign or none. -/
def WritesIndex (key : String) (i : Nat) : Prop :=
  ∃ digits, (key.toList = digits ∨ key.toList = '+' :: digits) ∧ digits ≠ [] ∧
    (∀ c ∈ digits, c.isDigit = true) ∧ Nat.ofDigitChars 10 digits 0 = i

theorem plus_ne_digits {digits rest : List Char} (h : ∀ c ∈ digits, c.isDigit = true) :
    digits ≠ '+' :: rest := by
  rintro rfl
  exact absurd (h '+' List.mem_cons_self) (by decide)

/-- A key writes one index at most. -/
theorem WritesIndex.unique {key : String} {i j : Nat} (h : WritesIndex key i)
    (h' : WritesIndex key j) : i = j := by
  obtain ⟨digits, hkey, _, hdigits, rfl⟩ := h
  obtain ⟨digits', hkey', _, hdigits', rfl⟩ := h'
  have hsame : digits = digits' := by
    rcases hkey with hkey | hkey <;> rcases hkey' with hkey' | hkey'
    · exact hkey.symm.trans hkey'
    · exact absurd (hkey.symm.trans hkey') (plus_ne_digits hdigits)
    · exact absurd (hkey'.symm.trans hkey) (plus_ne_digits hdigits')
    · exact (List.cons.inj (hkey.symm.trans hkey')).2
  rw [hsame]

theorem index?_eq_some_iff {key : String} {i : Nat} :
    index? key = some i ↔ WritesIndex key i ∧ i < Nat.pow 2 64 := by
  unfold index?
  dsimp only
  constructor
  · intro h
    split at h
    case h_1 n hnumber =>
      split at h
      case isFalse => cases h
      case isTrue hlt =>
        obtain rfl := Option.some.inj h
        split at hnumber
        case h_1 rest hkey =>
          exact ⟨⟨rest, .inr hkey, Text.natOfDigits?_eq_some_iff.mp hnumber⟩, hlt⟩
        case h_2 =>
          exact ⟨⟨key.toList, .inl rfl, Text.natOfDigits?_eq_some_iff.mp hnumber⟩, hlt⟩
    case h_2 => cases h
  · rintro ⟨⟨digits, hkey, hdigits⟩, hlt⟩
    have hnumber := Text.natOfDigits?_eq_some_iff.mpr hdigits
    rcases hkey with hkey | hkey
    · -- This decides between the cases of the plus sign.
      have hplain : ∀ rest, digits = '+' :: rest → False := fun _ =>
        plus_ne_digits hdigits.2.1
      simp [hkey, hnumber, hlt]
    · simp only [hkey, hnumber, if_pos hlt]

theorem get?_array_eq_some_iff {items : List Value} {key : String} {found : Value} :
    (Value.array items).get? key = some found ↔
      ∃ i, WritesIndex key i ∧ i < Nat.pow 2 64 ∧ items[i]? = some found := by
  simp only [get?, Option.bind_eq_some_iff, index?_eq_some_iff, and_assoc]

/-- Looking up composes. A path that was put together from two with a dot leads
where the second one leads from where the first one led, and nowhere if the first
one led nowhere. All that counts of a path are its pieces between dots that are
not empty, in their order, and for each of them that is a step by one key. An item
of an array is selected by the keys that write its place in decimal digits, behind
one plus sign or none and with any number of leading zeros; every other key finds
nothing, and so do numbers that are too great for a word. -/
theorem lookup?_composes :
    (∀ (v : Value) (p q : String),
      v.lookup? (p ++ "." ++ q) = (v.lookup? p).bind fun found => found.lookup? q) ∧
    (∀ (v : Value) (path : String),
      v.lookup? path =
        (((path.toList.splitOn '.').filter (· ≠ [])).map String.ofList).foldlM get? v) ∧
    (∀ (v : Value) (keys : List String), (∀ key ∈ keys, key ≠ "" ∧ '.' ∉ key.toList) →
      v.lookup? (".".intercalate keys) = keys.foldlM get? v) ∧
    (∀ (items : List Value) (key : String) (found : Value),
      (Value.array items).get? key = some found ↔
        ∃ i, WritesIndex key i ∧ i < Nat.pow 2 64 ∧ items[i]? = some found) ∧
    (∀ (items : List Value) (key : String) (found : Value), items.length ≤ Nat.pow 2 64 →
      ((Value.array items).get? key = some found ↔
        ∃ i, WritesIndex key i ∧ items[i]? = some found)) ∧
    ∀ (items : List Value) (key : String) (i : Nat), WritesIndex key i → Nat.pow 2 64 ≤ i →
      (Value.array items).get? key = none := by
  refine ⟨lookup?_append, fun v path => ?_, fun v keys hkeys => ?_,
    fun _ _ _ => get?_array_eq_some_iff, fun items key found hlength => ?_,
    fun items key i hwrites hgreat => ?_⟩
  · rw [lookup?, keys_eq]
  · have hall : keys.filter (· ≠ "") = keys := by
      refine List.filter_eq_self.mpr fun key member => ?_
      simpa using (hkeys key member).1
    rw [lookup?, keys_intercalate fun key member => (hkeys key member).2, hall]
  · rw [get?_array_eq_some_iff]
    refine exists_congr fun i => and_congr_right fun _ => and_iff_right_of_imp fun hitem => ?_
    obtain ⟨hi, _⟩ := List.getElem?_eq_some_iff.mp hitem
    exact Nat.lt_of_lt_of_le hi hlength
  · refine Option.eq_none_iff_forall_ne_some.mpr fun found hfound => ?_
    obtain ⟨j, hwrites', hless, _⟩ := get?_array_eq_some_iff.mp hfound
    exact Nat.not_lt.mpr hgreat (hwrites.unique hwrites' ▸ hless)

/-- Dots that are doubled or stand at an end do not count, and an item is found by
its place with a plus sign and leading zeros, but not by its place and `2 ^ 64`. -/
theorem lookup?_composes_dotted :
    let items := [Value.string "x", .object [("b", .string "y")]]
    let v := Value.object [("a", .array items)]
    v.lookup? (".a." ++ "." ++ "+001.b") = some (.string "y") ∧
      ((v.lookup? ".a.").bind fun found => found.lookup? "+001.b") = some (.string "y") ∧
      v.lookup? (".".intercalate ["a", "1", "b"]) = ["a", "1", "b"].foldlM get? v ∧
      (∃ i, WritesIndex "+001" i ∧ items[i]? = some (.object [("b", .string "y")])) ∧
      (Value.array items).get? "18446744073709551617" = none := by
  intro items v
  obtain ⟨hcompose, _, hkeys, _, hselect, hbeyond⟩ := lookup?_composes
  have hfound : v.lookup? (".a." ++ "." ++ "+001.b") = some (.string "y") := rfl
  have hitem : (Value.array items).get? "+001" = some (.object [("b", .string "y")]) := rfl
  have hgreat : WritesIndex "18446744073709551617" 18446744073709551617 :=
    ⟨_, .inl rfl, by decide +kernel, List.all_eq_true.mp (by decide +kernel),
      by decide +kernel⟩
  exact ⟨hfound, hcompose v ".a." "+001.b" ▸ hfound, hkeys v ["a", "1", "b"] (by decide +kernel),
    (hselect items "+001" _ (by decide)).mp hitem, hbeyond items _ _ hgreat (by decide)⟩

end Stencil.Value
