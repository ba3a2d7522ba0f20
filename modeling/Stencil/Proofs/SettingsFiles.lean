import Stencil.Proofs.TomlLines
import Stencil.Settings.Toml

/-!
Settings and their files. What is written of settings is read back as the same
settings. A file gives each setting or leaves it out, in any order and beside
other keys, and what it leaves out is as in the default settings. A limit that
is no integer of a word, or a policy that does not exist, makes the file
invalid, whatever else it says.
-/

namespace Stencil

section

variable {α : Type} {key : String} {value : α} {fields others : List (String × α)}

theorem field?_append (key : String) (fields others : List (String × α)) :
    field? key (fields ++ others) = (field? key fields).or (field? key others) := by
  induction fields with
  | nil => rfl
  | cons entry rest ih =>
      by_cases hkey : entry.1 = key
      · simp [field?, hkey]
      · simp [field?, hkey, ih]

theorem field?_eq_some_iff (h : (fields.map Prod.fst).Nodup) :
    field? key fields = some value ↔ (key, value) ∈ fields := by
  constructor
  · exact mem_of_field?
  · intro member
    induction fields with
    | nil => cases member
    | cons entry rest ih =>
        obtain ⟨hfirst, hrest⟩ := List.nodup_cons.mp h
        rcases List.mem_cons.mp member with rfl | member
        · simp [field?]
        · have hne : entry.1 ≠ key := by
            rintro rfl
            exact hfirst (List.mem_map.mpr ⟨_, member, rfl⟩)
          rw [field?, if_neg hne]
          exact ih hrest member

/-- The order of fields with different keys makes no difference to what a key
leads to. -/
theorem field?_perm (h : fields.Perm others) (hkeys : (fields.map Prod.fst).Nodup)
    (key : String) : field? key fields = field? key others := by
  have hother : (others.map Prod.fst).Nodup := (h.map Prod.fst).nodup_iff.mp hkeys
  apply Option.ext
  intro value
  rw [field?_eq_some_iff hkeys, field?_eq_some_iff hother]
  exact h.mem_iff

end

namespace MissingPolicy

theorem ofWord?_word (policy : MissingPolicy) : ofWord? policy.word = some policy := by
  cases policy <;> rfl

theorem ofWord?_none {text : String} (h : ∀ policy : MissingPolicy, policy.word ≠ text) :
    ofWord? text = none := by
  simp [ofWord?, h]

end MissingPolicy

namespace Settings

/-- What a file says of the settings; what it does not say is none. -/
structure Given where
  missing : Option MissingPolicy
  maxPartialDepth : Option Nat
  maxOutputBytes : Option Nat

namespace Given

/-- The limits fit a word. -/
def Fits (given : Given) : Prop :=
  (∀ n, given.maxPartialDepth = some n → n < Nat.pow 2 64) ∧
    ∀ n, given.maxOutputBytes = some n → n < Nat.pow 2 64

/-- The settings that the file stands for. -/
def settings (given : Given) : Settings :=
  let base : Settings := {}
  { missing := given.missing.getD base.missing
    maxPartialDepth := given.maxPartialDepth.getD base.maxPartialDepth
    maxOutputBytes := given.maxOutputBytes }

def fields (given : Given) : List (String × Toml.Value) :=
  (given.missing.map fun policy => ("missing_helper", .string policy.word)).toList ++
  (given.maxPartialDepth.map fun n => ("max_partial_depth", .integer n)).toList ++
  (given.maxOutputBytes.map fun n => ("max_output_bytes", .integer n)).toList

/-- The fields, one on a line: a word in quotes, and decimal numerals. -/
def lines (given : Given) : List String :=
  (given.missing.map fun policy => "missing_helper = \"" ++ policy.word ++ "\"").toList ++
  (given.maxPartialDepth.map fun n => "max_partial_depth = " ++ Text.numeral n).toList ++
  (given.maxOutputBytes.map fun n => "max_output_bytes = " ++ Text.numeral n).toList

end Given

/-- The keys of settings in a file. -/
def keys : List String := ["missing_helper", "max_partial_depth", "max_output_bytes"]

theorem assigns_policy (policy : MissingPolicy) :
    Toml.Assigns ("missing_helper = \"" ++ policy.word ++ "\"")
      ("missing_helper", .string policy.word) := by
  have hplain : Toml.IsPlainText policy.word.toList := by
    cases policy <;> decide
  have hwrites := Toml.Writes.quoted hplain
  rw [String.ofList_toList] at hwrites
  have hkey : Toml.IsBareKey "missing_helper" := by decide
  refine ⟨hkey, _, hwrites, ?_⟩
  apply String.toList_inj.mp
  simp

theorem assigns_limit {key line : String} (hkey : Toml.IsBareKey key) {n : Nat}
    (h : n < Nat.pow 2 64) (hline : line = key ++ " = ") :
    Toml.Assigns (line ++ Text.numeral n) (key, .integer n) := by
  have hwords : Nat.pow 2 64 ≤ Nat.pow 2 128 := by decide
  exact ⟨hkey, _, .numeral (by omega), by rw [hline]; rfl⟩

theorem Given.assigns {given : Given} (h : given.Fits) :
    List.Forall₂ Toml.Assigns given.lines given.fields := by
  obtain ⟨missing, depth, bytes⟩ := given
  obtain ⟨hdepth, hbytes⟩ := h
  unfold lines fields
  apply List.rel_append
  · apply List.rel_append
    · cases missing with
      | none => exact .nil
      | some policy => exact .cons (assigns_policy policy) .nil
    · cases depth with
      | none => exact .nil
      | some n =>
        have hkey : Toml.IsBareKey "max_partial_depth" := by decide
        exact .cons (assigns_limit hkey (hdepth n rfl) (by decide)) .nil
  · cases bytes with
    | none => exact .nil
    | some n =>
        have hkey : Toml.IsBareKey "max_output_bytes" := by decide
        exact .cons (assigns_limit hkey (hbytes n rfl) (by decide)) .nil

/-- What settings are written as. -/
theorem toToml_eq (s : Settings) :
    s.toToml = Toml.ofLines (Given.lines ⟨some s.missing, some s.maxPartialDepth,
      s.maxOutputBytes⟩) := by
  apply String.toList_inj.mp
  unfold toToml Given.lines Toml.ofLines
  cases s.maxOutputBytes <;> simp

theorem limit?_integer {n : Nat} (h : n < Nat.pow 2 64) : limit? (.integer n) = some n :=
  if_pos h

/-- Fields that give the settings their values are the settings they stand
for. -/
theorem ofFields?_given {given : Given} (hfits : given.Fits) {fields : List (String × Toml.Value)}
    (h : ∀ key ∈ keys, field? key fields = field? key given.fields) :
    ofFields? fields = some given.settings := by
  obtain ⟨missing, depth, bytes⟩ := given
  obtain ⟨hdepth, hbytes⟩ := hfits
  have hmissing := h "missing_helper" (by decide)
  have hmaxDepth := h "max_partial_depth" (by decide)
  have hmaxBytes := h "max_output_bytes" (by decide)
  have hmissing' : field? "missing_helper" fields =
      missing.map fun policy => .string policy.word := by
    rw [hmissing]
    cases missing <;> cases depth <;> cases bytes <;> rfl
  have hdepth' : field? "max_partial_depth" fields = depth.map fun n => .integer n := by
    rw [hmaxDepth]
    cases missing <;> cases depth <;> cases bytes <;> rfl
  have hbytes' : field? "max_output_bytes" fields = bytes.map fun n => .integer n := by
    rw [hmaxBytes]
    cases missing <;> cases depth <;> cases bytes <;> rfl
  have hpolicy : fieldOr? policy? MissingPolicy.asymmetric "missing_helper" fields =
      some (missing.getD .asymmetric) := by
    unfold fieldOr?
    rw [hmissing']
    cases missing with
    | none => rfl
    | some policy => exact MissingPolicy.ofWord?_word policy
  have hlimit : fieldOr? limit? defaultMaxPartialDepth "max_partial_depth" fields =
      some (depth.getD defaultMaxPartialDepth) := by
    unfold fieldOr?
    rw [hdepth']
    cases depth with
    | none => rfl
    | some n => exact limit?_integer (hdepth n rfl)
  have hbound : fieldOr? (fun v => (limit? v).map some) none "max_output_bytes" fields =
      some bytes := by
    unfold fieldOr?
    rw [hbytes']
    cases bytes with
    | none => rfl
    | some n =>
        show (limit? (.integer n)).map some = _
        rw [limit?_integer (hbytes n rfl)]
        rfl
  unfold ofFields?
  simp only [hpolicy, hlimit, hbound]
  rfl

/-- The value is no integer from zero up to the greatest word. -/
def NoLimit (v : Toml.Value) : Prop := ∀ n : Nat, n < Nat.pow 2 64 → v ≠ .integer n

theorem limit?_none {v : Toml.Value} (h : NoLimit v) : limit? v = none := by
  cases v with
  | integer value =>
      cases value with
      | ofNat n =>
          have hn : ¬ n < Nat.pow 2 64 := fun hlt => h n hlt rfl
          exact if_neg hn
      | negSucc n => rfl
  | _ => rfl

/-- A limit that is no limit, or a policy that does not exist. -/
inductive Misfit (fields : List (String × Toml.Value)) : Prop
  | limit {key : String} {v : Toml.Value} (hkey : key ∈ ["max_partial_depth", "max_output_bytes"])
      (hfield : field? key fields = some v) (hv : NoLimit v)
  | policy {text : String} (hfield : field? "missing_helper" fields = some (.string text))
      (htext : ∀ policy : MissingPolicy, policy.word ≠ text)

theorem ofFields?_misfit {fields : List (String × Toml.Value)} (h : Misfit fields) :
    ofFields? fields = none := by
  unfold ofFields?
  cases h with
  | limit hkey hfield hv =>
      simp only [List.mem_cons, List.not_mem_nil, or_false] at hkey
      rcases hkey with rfl | rfl
      · have hnone : fieldOr? limit? defaultMaxPartialDepth "max_partial_depth" fields = none := by
          simp only [fieldOr?, hfield, limit?_none hv]
        simp [hnone]
      · have hnone : fieldOr? (fun v => (limit? v).map some) none "max_output_bytes" fields =
            none := by
          simp only [fieldOr?, hfield, limit?_none hv, Option.map_none]
        simp [hnone]
  | policy hfield htext =>
      have hnone : fieldOr? policy? MissingPolicy.asymmetric "missing_helper" fields = none := by
        simp only [fieldOr?, hfield, policy?, MissingPolicy.ofWord?_none htext]
      simp [hnone]

/-- Settings and their files agree. Settings whose limits fit words are read back
from what is written of them. A file whose lines give some settings and any
other keys, each key once and in any order, is read as those settings, and the
rest of them as in the default ones; a word in quotes and decimal numerals are
one way to give them. Whatever else it says, a file is invalid if a limit in it
is anything but an integer from zero up to the greatest word, or if its policy
is the word for none. -/
theorem files_agree :
    (∀ s : Settings, Given.Fits ⟨some s.missing, some s.maxPartialDepth, s.maxOutputBytes⟩ →
      ofToml? s.toToml = some s) ∧
    (∀ given : Given, given.Fits →
      List.Forall₂ Toml.Assigns given.lines given.fields ∧
      ∀ (lines : List String) (fields others : List (String × Toml.Value)),
        List.Forall₂ Toml.Assigns lines fields → fields.Perm (given.fields ++ others) →
        (fields.map Prod.fst).Nodup → (∀ field ∈ others, field.1 ∉ keys) →
        ofToml? (Toml.ofLines lines) = some given.settings) ∧
    (∀ text : String, (∀ fields, Toml.read? text = some fields → Misfit fields) →
      ofToml? text = none) ∧
    ∀ (lines : List String) (fields : List (String × Toml.Value)),
      List.Forall₂ Toml.Assigns lines fields → (fields.map Prod.fst).Nodup → Misfit fields →
      ofToml? (Toml.ofLines lines) = none := by
  have hread : ∀ (given : Given), given.Fits → ∀ (lines : List String)
      (fields others : List (String × Toml.Value)), List.Forall₂ Toml.Assigns lines fields →
      fields.Perm (given.fields ++ others) → (fields.map Prod.fst).Nodup →
      (∀ field ∈ others, field.1 ∉ keys) →
      ofToml? (Toml.ofLines lines) = some given.settings := by
    intro given hfits lines fields others hlines hperm hnodup hothers
    rw [ofToml?, Toml.read_lines hlines hnodup, Option.bind_some]
    apply ofFields?_given hfits
    intro key hkey
    have hnone : field? key others = none := by
      rw [← Option.not_isSome_iff_eq_none, isSome_field?_iff, List.mem_map]
      rintro ⟨field, member, rfl⟩
      exact hothers field member hkey
    rw [field?_perm hperm hnodup, field?_append, hnone, Option.or_none]
  have hmisfit : ∀ text : String, (∀ fields, Toml.read? text = some fields → Misfit fields) →
      ofToml? text = none := by
    intro text h
    rw [ofToml?]
    cases hfields : Toml.read? text with
    | none => rfl
    | some fields => exact ofFields?_misfit (h fields hfields)
  refine ⟨?_, fun given hfits => ⟨Given.assigns hfits, hread given hfits⟩, hmisfit, ?_⟩
  · intro s hfits
    rw [toToml_eq]
    refine hread _ hfits _ _ [] (Given.assigns hfits) (by simp) ?_ (by simp)
    obtain ⟨missing, depth, bytes⟩ := s
    cases bytes <;> simp [Given.fields]
  · intro lines fields hlines hnodup hbad
    apply hmisfit
    intro fields' hread
    rw [Toml.read_lines hlines hnodup] at hread
    exact Option.some.inj hread ▸ hbad

/-- The greatest limits are read back; keys in another order, one of them
unknown, and one left out; and limits that are written as a float, as a negative
number, as a boolean and as a string. -/
theorem files_agree_mixed :
    ofToml? (toToml ⟨.fail, Nat.pow 2 64 - 1, some (Nat.pow 2 64 - 1)⟩) =
      some ⟨.fail, Nat.pow 2 64 - 1, some (Nat.pow 2 64 - 1)⟩ ∧
    ofToml? (Toml.ofLines ["max_output_bytes = 7", "note = true", "missing_helper = \"empty\""]) =
      some ⟨.empty, 64, some 7⟩ ∧
    ofToml? (Toml.ofLines ["missing_helper = \"fail\"", "max_partial_depth = 3.0"]) = none ∧
    ofToml? (Toml.ofLines ["max_partial_depth = -1"]) = none ∧
    ofToml? (Toml.ofLines ["max_output_bytes = true"]) = none ∧
    ofToml? (Toml.ofLines ["max_output_bytes = \"3\""]) = none ∧
    ofToml? (Toml.ofLines ["missing_helper = \"ignore\""]) = none := by
  obtain ⟨hround, hgiven, -, hmisfit⟩ := files_agree
  have hbytes : Toml.IsBareKey "max_output_bytes" := by decide
  have hdepth : Toml.IsBareKey "max_partial_depth" := by decide
  have hmissing : Toml.IsBareKey "missing_helper" := by decide
  have hlimit : ∀ {key : String} {v : Toml.Value} {line : String},
      key ∈ ["max_partial_depth", "max_output_bytes"] → NoLimit v →
      Toml.Assigns line (key, v) → ofToml? (Toml.ofLines [line]) = none := by
    intro key v line hkey hv hline
    exact hmisfit _ _ (.cons hline .nil) (by simp) (.limit hkey (if_pos rfl) hv)
  refine ⟨hround _ ⟨by rintro _ ⟨⟩; decide, by rintro _ ⟨⟩; decide⟩, ?_, ?_, ?_, ?_, ?_, ?_⟩
  · have hseven : Toml.Assigns "max_output_bytes = 7" ("max_output_bytes", .integer 7) :=
      ⟨hbytes, _, @Toml.Writes.numeral 7 (by decide), by decide⟩
    have hnote : Toml.Assigns "note = true" ("note", .boolean true) :=
      ⟨by decide, _, .boolean true, by decide⟩
    have hperm := @List.perm_append_comm _
      [("max_output_bytes", Toml.Value.integer 7), ("note", .boolean true)]
      [("missing_helper", .string "empty")]
    exact (hgiven ⟨some .empty, none, some 7⟩ ⟨nofun, by rintro _ ⟨⟩; decide⟩).2 _ _
      [("note", .boolean true)] (.cons hseven (.cons hnote (.cons (assigns_policy .empty) .nil)))
      hperm (by decide) (by decide)
  · have hfloat : Toml.Writes "3.0".toList .float :=
      .bare (by decide) (List.all_eq_true.mp rfl) rfl
    exact hmisfit _ [("missing_helper", .string "fail"), ("max_partial_depth", .float)]
      (.cons (assigns_policy .fail) (.cons ⟨hdepth, _, hfloat, by decide⟩ .nil)) (by decide)
      (.limit List.mem_cons_self rfl fun _ _ h => by cases h)
  · have hnegative := @Toml.Writes.negative 1 (by decide)
    exact hlimit (by decide) (fun n _ h => by cases h) ⟨hdepth, _, hnegative, by decide⟩
  · exact hlimit (by decide) (fun n _ h => by cases h) ⟨hbytes, _, .boolean true, by decide⟩
  · have hquoted := @Toml.Writes.quoted "3".toList (by decide)
    exact hlimit (by decide) (fun n _ h => by cases h) ⟨hbytes, _, hquoted, by decide⟩
  · have hignore :
        Toml.Assigns "missing_helper = \"ignore\"" ("missing_helper", .string "ignore") :=
      ⟨hmissing, _, @Toml.Writes.quoted "ignore".toList (by decide), by decide⟩
    have hword : ∀ policy : MissingPolicy, policy.word ≠ "ignore" := by
      intro policy
      cases policy <;> decide
    exact hmisfit _ _ (.cons hignore .nil) (by simp) (.policy rfl hword)

end Settings

end Stencil
