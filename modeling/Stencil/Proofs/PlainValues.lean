import Stencil.Json.Writer
import Stencil.Page.Basic
import Stencil.Proofs.Paths
import Stencil.Proofs.Reading

/-!
Values that are JSON as they stand: nothing in them is deferred, and no text is
marked as safe. Such a value is the same after it was made JSON and read back,
and so is each of its parts.
-/

namespace Stencil

namespace Value

mutual
/-- Nothing in the value is deferred or marked as safe. -/
def IsPlain : Value → Prop
  | .null | .bool _ | .number _ | .string _ => True
  | .safe _ | .lazy _ _ | .endless _ => False
  | .array items => ArePlain items
  | .object fields => HavePlain fields
termination_by structural v => v

def ArePlain : List Value → Prop
  | [] => True
  | v :: rest => v.IsPlain ∧ ArePlain rest
termination_by structural vs => vs

def HavePlain : List (String × Value) → Prop
  | [] => True
  | (_, v) :: rest => v.IsPlain ∧ HavePlain rest
termination_by structural fields => fields
end

mutual
/-- How many evaluations are left makes no difference, for there are none. -/
theorem ofJson_toJsonWithin (budget : Nat) :
    ∀ v : Value, v.IsPlain → ofJson (v.toJsonWithin budget).1 = v
  | .null, _ => rfl
  | .bool _, _ => rfl
  | .number _, _ => rfl
  | .string _, _ => rfl
  | .safe _, h => h.elim
  | .lazy _ _, h => h.elim
  | .endless _, h => h.elim
  | .array items, h => congrArg Value.array (ofJsonItems_toJsonItems items h)
  | .object fields, h => congrArg Value.object (ofJsonFields_toJsonFields fields h)
termination_by structural v => v

theorem ofJsonItems_toJsonItems :
    ∀ items : List Value, ArePlain items → ofJsonItems (toJsonItems items).1 = items
  | [], _ => rfl
  | v :: rest, h => by
      simp only [toJsonItems, ofJsonItems, ofJson_toJsonWithin maxLazyDepth v h.1,
        ofJsonItems_toJsonItems rest h.2]
termination_by structural items => items

theorem ofJsonFields_toJsonFields :
    ∀ fields : List (String × Value), HavePlain fields →
      ofJsonFields (toJsonFields fields).1 = fields
  | [], _ => rfl
  | (key, v) :: rest, h => by
      simp only [toJsonFields, ofJsonFields, ofJson_toJsonWithin maxLazyDepth v h.1,
        ofJsonFields_toJsonFields rest h.2]
termination_by structural fields => fields
end

theorem ofJson_toJson {v : Value} (h : v.IsPlain) : ofJson v.toJson.1 = v :=
  ofJson_toJsonWithin maxLazyDepth v h

theorem field?_ofJsonFields (key : String) (fields : List (String × Json)) :
    field? key (ofJsonFields fields) = (field? key fields).map ofJson := by
  induction fields with
  | nil => rfl
  | cons entry rest ih =>
      obtain ⟨name, value⟩ := entry
      by_cases hname : name = key
      · simp [ofJsonFields, field?, hname]
      · simp [ofJsonFields, field?, hname, ih]

theorem keys_of_isIdentifier {name : String} (h : Source.IsIdentifier name) :
    keys name = [name] := by
  have hdot : '.' ∉ name.toList := by
    intro member
    exact absurd (Source.IsWord.symbols h _ member) (by decide)
  have hne : name ≠ "" := by
    rintro rfl
    exact h
  have hkeys := keys_intercalate (List.forall_mem_singleton.mpr hdot)
  rwa [String.intercalate_singleton, List.filter_singleton, decide_eq_true hne] at hkeys

theorem lookup?_of_isIdentifier {name : String} (h : Source.IsIdentifier name) (v : Value) :
    v.lookup? name = v.get? name := by
  simp [lookup?, keys_of_isIdentifier h]

/-- What a key leads to in the JSON form of an object is the JSON form of what it
leads to in the object. -/
theorem follow_toJson {fields : List (String × Value)} (h : (Value.object fields).IsPlain)
    (key : String) :
    ((Value.object fields).toJson.1.follow [key] = .absent ∧ field? key fields = none) ∨
      ∃ json, (Value.object fields).toJson.1.follow [key] = .found json ∧
        field? key fields = some (ofJson json) := by
  have hfields := field?_ofJsonFields key (toJsonFields fields).1
  rw [ofJsonFields_toJsonFields fields h] at hfields
  cases hfound : field? key (toJsonFields fields).1 with
  | none =>
      left
      constructor
      · simp [toJson, toJsonWithin, Json.follow, Json.step, hfound]
      · simpa [hfound] using hfields
  | some json =>
      right
      refine ⟨json, ?_, ?_⟩
      · simp [toJson, toJsonWithin, Json.follow, Json.step, hfound]
      · simpa [hfound] using hfields

end Value

end Stencil
