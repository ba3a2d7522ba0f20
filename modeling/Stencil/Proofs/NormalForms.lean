import Stencil.Proofs.PlainValues
import Stencil.Proofs.Sameness

/-!
The JSON form of a value and the value read back from it. Reading gives the
normal form: the same tree, where safe text became plain text and a deferred
value became what it resolves to, in normal form. What an evaluation gives may
hold deferred values again, at any depth, and for each of those the count of
evaluations begins anew.
-/

namespace Stencil.Value

theorem toJsonWithin_of_not_isLazy {v : Value} (h : ¬ v.isLazy) (budget other : Nat) :
    v.toJsonWithin budget = v.toJsonWithin other := by
  cases v <;> simp_all [toJsonWithin, isLazy]

/-- The JSON form sees a deferred value only through what it resolves to. -/
theorem toJson_resolveWithin (budget : Nat) (v : Value) :
    (v.resolveWithin budget).value.toJson.1 = (v.toJsonWithin budget).1 := by
  induction budget generalizing v with
  | zero => cases v <;> rfl
  | succ budget ih =>
      by_cases hlazy : v.isLazy
      · cases v with
        | lazy identity result => exact ih result
        | endless identity => rfl
        | _ => simp [isLazy] at hlazy
      · rw [resolveWithin_of_not_isLazy hlazy, toJson,
          toJsonWithin_of_not_isLazy hlazy maxLazyDepth (budget + 1)]

theorem toJson_resolve (v : Value) : v.resolve.value.toJson.1 = v.toJson.1 :=
  toJson_resolveWithin maxLazyDepth v

mutual
/-- The second value is the normal form of the first one. -/
inductive NormalForm : Value → Value → Prop
  | null : NormalForm .null .null
  | bool (b : Bool) : NormalForm (.bool b) (.bool b)
  | number (n : Number) : NormalForm (.number n) (.number n)
  | string (s : String) : NormalForm (.string s) (.string s)
  | safe (s : String) : NormalForm (.safe s) (.string s)
  | array {items forms : List Value} (each : NormalForms items forms) :
      NormalForm (.array items) (.array forms)
  | object {fields forms : List (String × Value)} (each : NormalFields fields forms) :
      NormalForm (.object fields) (.object forms)
  | deferred {v form : Value} (h : v.isLazy) (resolved : NormalForm v.resolve.value form) :
      NormalForm v form

inductive NormalForms : List Value → List Value → Prop
  | nil : NormalForms [] []
  | cons {v form : Value} {rest forms : List Value} (first : NormalForm v form)
      (others : NormalForms rest forms) : NormalForms (v :: rest) (form :: forms)

inductive NormalFields : List (String × Value) → List (String × Value) → Prop
  | nil : NormalFields [] []
  | cons {v form : Value} {rest forms : List (String × Value)} (key : String)
      (first : NormalForm v form) (others : NormalFields rest forms) :
      NormalFields ((key, v) :: rest) ((key, form) :: forms)
end

theorem NormalForm.of_resolve {v form : Value} (h : NormalForm v.resolve.value form) :
    NormalForm v form := by
  by_cases hlazy : v.isLazy
  · exact .deferred hlazy h
  · exact resolve_of_not_isLazy hlazy ▸ h

/- The recursion is on the value. Below a deferred value it goes on with one
evaluation less, and inside arrays and objects with all of them. -/
mutual
theorem normalForm_resolveWithin (budget : Nat) :
    ∀ v : Value, NormalForm (v.resolveWithin budget).value (ofJson (v.toJsonWithin budget).1)
  | .null => .null
  | .bool b => .bool b
  | .number n => .number n
  | .string s => .string s
  | .safe s => .safe s
  | .array items => .array (normalForms_toJsonItems items)
  | .object fields => .object (normalFields_toJsonFields fields)
  | .lazy _ result =>
      match budget with
      | 0 => .null
      | budget + 1 => normalForm_resolveWithin budget result
  | .endless _ => .null
termination_by structural v => v

theorem normalForms_toJsonItems :
    ∀ items : List Value, NormalForms items (ofJsonItems (toJsonItems items).1)
  | [] => .nil
  | v :: rest =>
      .cons (.of_resolve (normalForm_resolveWithin maxLazyDepth v)) (normalForms_toJsonItems rest)
termination_by structural items => items

theorem normalFields_toJsonFields :
    ∀ fields : List (String × Value), NormalFields fields (ofJsonFields (toJsonFields fields).1)
  | [] => .nil
  | (key, v) :: rest =>
      .cons key (.of_resolve (normalForm_resolveWithin maxLazyDepth v))
        (normalFields_toJsonFields rest)
termination_by structural fields => fields
end

/-- Every value has a normal form, the one that is read back from its JSON form. -/
theorem normalForm_ofJson_toJson (v : Value) : NormalForm v (ofJson v.toJson.1) :=
  .of_resolve (normalForm_resolveWithin maxLazyDepth v)

mutual
theorem NormalForm.eq_ofJson : ∀ {v form : Value}, NormalForm v form → form = ofJson v.toJson.1
  | _, _, .null => rfl
  | _, _, .bool _ => rfl
  | _, _, .number _ => rfl
  | _, _, .string _ => rfl
  | _, _, .safe _ => rfl
  | _, _, .array each => congrArg Value.array each.eq_ofJsonItems
  | _, _, .object each => congrArg Value.object each.eq_ofJsonFields
  | v, _, .deferred _ resolved => by rw [resolved.eq_ofJson, toJson_resolve v]

theorem NormalForms.eq_ofJsonItems :
    ∀ {items forms : List Value}, NormalForms items forms →
      forms = ofJsonItems (toJsonItems items).1
  | _, _, .nil => rfl
  | _, _, .cons first others => congrArg₂ List.cons first.eq_ofJson others.eq_ofJsonItems

theorem NormalFields.eq_ofJsonFields :
    ∀ {fields forms : List (String × Value)}, NormalFields fields forms →
      forms = ofJsonFields (toJsonFields fields).1
  | _, _, .nil => rfl
  | _, _, .cons key first others =>
      congrArg₂ List.cons (congrArg (key, ·) first.eq_ofJson) others.eq_ofJsonFields
end

/-- There is one normal form of a value. -/
theorem normalForm_iff (v form : Value) : NormalForm v form ↔ form = ofJson v.toJson.1 := by
  constructor
  · exact NormalForm.eq_ofJson
  · rintro rfl
    exact normalForm_ofJson_toJson v

mutual
/-- What is read from JSON is plain. -/
theorem isPlain_ofJson : ∀ json : Json, (ofJson json).IsPlain
  | .null => trivial
  | .bool _ => trivial
  | .number _ => trivial
  | .string _ => trivial
  | .array items => arePlain_ofJsonItems items
  | .object fields => havePlain_ofJsonFields fields
termination_by structural json => json

theorem arePlain_ofJsonItems : ∀ items : List Json, ArePlain (ofJsonItems items)
  | [] => trivial
  | json :: rest => ⟨isPlain_ofJson json, arePlain_ofJsonItems rest⟩
termination_by structural items => items

theorem havePlain_ofJsonFields : ∀ fields : List (String × Json), HavePlain (ofJsonFields fields)
  | [] => trivial
  | (_, json) :: rest => ⟨isPlain_ofJson json, havePlain_ofJsonFields rest⟩
termination_by structural fields => fields
end

mutual
theorem toJson_ofJson : ∀ json : Json, (ofJson json).toJson.1 = json
  | .null => rfl
  | .bool _ => rfl
  | .number _ => rfl
  | .string _ => rfl
  | .array items => congrArg Json.array (toJsonItems_ofJsonItems items)
  | .object fields => congrArg Json.object (toJsonFields_ofJsonFields fields)
termination_by structural json => json

theorem toJsonItems_ofJsonItems :
    ∀ items : List Json, (toJsonItems (ofJsonItems items)).1 = items
  | [] => rfl
  | json :: rest =>
      congrArg₂ List.cons (toJson_ofJson json) (toJsonItems_ofJsonItems rest)
termination_by structural items => items

theorem toJsonFields_ofJsonFields :
    ∀ fields : List (String × Json), (toJsonFields (ofJsonFields fields)).1 = fields
  | [] => rfl
  | (key, json) :: rest =>
      congrArg₂ List.cons (congrArg (key, ·) (toJson_ofJson json))
        (toJsonFields_ofJsonFields rest)
termination_by structural fields => fields
end

/- A value is equal to a plain one only if it is plain: equality compares the
constructors, and a deferred value or safe text has no plain one of its own. -/
mutual
theorem IsPlain.of_same : ∀ v w : Value, v.IsPlain → v.same w → w.IsPlain
  | .null, w, _, hsame | .bool _, w, _, hsame | .number _, w, _, hsame
  | .string _, w, _, hsame => by
      cases (same_iff_matches _ w).mp hsame
      trivial
  | .array items, w, hplain, hsame => by
      cases (same_iff_matches _ w).mp hsame with
      | array hitems => exact ArePlain.of_match items _ hplain hitems
  | .object fields, w, hplain, hsame => by
      cases (same_iff_matches _ w).mp hsame with
      | object hfields => exact HavePlain.of_match fields _ hplain hfields
termination_by structural v => v

theorem ArePlain.of_match :
    ∀ items others : List Value, ArePlain items → ItemsMatch items others → ArePlain others
  | [], _, _, .nil => trivial
  | v :: items, _, hplain, .cons hv hitems =>
      ⟨IsPlain.of_same v _ hplain.1 hv, ArePlain.of_match items _ hplain.2 hitems⟩
termination_by structural items => items

theorem HavePlain.of_match :
    ∀ fields others : List (String × Value), HavePlain fields → FieldsMatch fields others →
      HavePlain others
  | [], _, _, .nil => trivial
  | (_, v) :: fields, _, hplain, .cons hv hfields =>
      ⟨IsPlain.of_same v _ hplain.1 hv.2, HavePlain.of_match fields _ hplain.2 hfields⟩
termination_by structural fields => fields
end

/-- The bridge between values and JSON. Reading a JSON value and writing it is
the identity. Writing any value and reading it gives its normal form, where a
chain of evaluations that is still deferred after the greatest number of them
counts as null; the normal form holds nothing deferred and no safe text, it is
equal to the value exactly if that holds none either, and writing and reading it
again changes nothing. -/
theorem json_round_trip :
    (∀ json : Json, (ofJson json).toJson.1 = json) ∧
      ∀ v : Value,
        (∀ form : Value, NormalForm v form ↔ ofJson v.toJson.1 = form) ∧
        v.resolve.value =
          (if (evaluate^[maxLazyDepth] v).isLazy then .null else evaluate^[maxLazyDepth] v) ∧
        (ofJson v.toJson.1).IsPlain ∧
        ((ofJson v.toJson.1).same v = true ↔ v.IsPlain) ∧
        (v.IsPlain → ofJson v.toJson.1 = v) ∧
        ofJson (ofJson v.toJson.1).toJson.1 = ofJson v.toJson.1 := by
  refine ⟨toJson_ofJson, fun v => ?_⟩
  have hplain := isPlain_ofJson v.toJson.1
  refine ⟨fun form => (normalForm_iff v form).trans eq_comm, resolveWithin_value maxLazyDepth v,
    hplain, ?_, ofJson_toJson, ?_⟩
  · constructor
    · exact IsPlain.of_same _ v hplain
    · intro h
      rw [ofJson_toJson h]
      exact same_self v
  · rw [toJson_ofJson]

example :
    ofJson (Value.array [.safe "a", .lazy 0 (.array [.lazy 1 (.safe "b"), .endless 2])]).toJson.1 =
      .array [.string "a", .array [.string "b", .null]] := rfl

end Stencil.Value
