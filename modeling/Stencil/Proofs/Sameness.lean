import Mathlib.Data.List.Forall2
import Stencil.Proofs.Resolving
import Stencil.Value

/-!
Values that are the same. Numbers are if they are of one kind and have one value:
a float has one form, apart from zero, which may have either sign. Deferred values
are if they are the same one, and everything else by its structure. Main statement:
this is an equivalence, and nothing that is asked of values tells the same ones
apart.
-/

namespace Stencil

namespace Binary64

theorem natAbs_ratio (x : Binary64) :
    x.ratio.1.natAbs = x.significand * Nat.pow 2 x.exponent.toNat := by
  simp only [ratio]
  split
  · rw [Int.natAbs_neg, ← Int.natCast_mul, Int.natAbs_natCast]
  · rw [← Int.natCast_mul, Int.natAbs_natCast]

/-- A number has one significand and one exponent. -/
theorem parts_unique {x y : Binary64} (hle : x.exponent ≤ y.exponent)
    (h : x.significand = y.significand * Nat.pow 2 (y.exponent - x.exponent).toNat) :
    x.significand = y.significand ∧ x.exponent = y.exponent := by
  obtain ⟨hsmall, hleast, _, _⟩ := x.canonical
  obtain ⟨_, _, _, hgreat⟩ := y.canonical
  by_cases hexponent : x.exponent = y.exponent
  · refine ⟨?_, hexponent⟩
    rw [h, hexponent, Int.sub_self]
    exact Nat.mul_one _
  · -- The greater exponent would give a significand of one bit too many.
    have hbits : Nat.pow 2 52 ≤ y.significand := hgreat.resolve_left (by omega)
    have hdouble : Nat.pow 2 1 ≤ Nat.pow 2 (y.exponent - x.exponent).toNat :=
      Nat.pow_le_pow_right Nat.zero_lt_two (by omega)
    have hproduct : Nat.pow 2 52 * Nat.pow 2 1 ≤ x.significand := h ▸ Nat.mul_le_mul hbits hdouble
    exact absurd hsmall (Nat.not_lt.mpr hproduct)

theorem parts_eq {x y : Binary64} (hle : x.exponent ≤ y.exponent)
    (h : x.ratio.1 * y.ratio.2 = y.ratio.1 * x.ratio.2) :
    x.significand = y.significand ∧ x.exponent = y.exponent := by
  refine parts_unique hle ?_
  have hsize : x.significand * Nat.pow 2 x.exponent.toNat * Nat.pow 2 (-y.exponent).toNat =
      y.significand * Nat.pow 2 y.exponent.toNat * Nat.pow 2 (-x.exponent).toNat := by
    rw [← natAbs_ratio, ← natAbs_ratio]
    have := congrArg Int.natAbs h
    rwa [Int.natAbs_mul, Int.natAbs_mul, Int.natAbs_natCast, Int.natAbs_natCast] at this
  have hpowers : y.exponent.toNat + (-x.exponent).toNat =
      (y.exponent - x.exponent).toNat + (x.exponent.toNat + (-y.exponent).toNat) := by omega
  have hpositive : 0 < Nat.pow 2 (x.exponent.toNat + (-y.exponent).toNat) := Nat.two_pow_pos _
  refine Nat.eq_of_mul_eq_mul_right hpositive ?_
  calc x.significand * Nat.pow 2 (x.exponent.toNat + (-y.exponent).toNat)
      = x.significand * Nat.pow 2 x.exponent.toNat * Nat.pow 2 (-y.exponent).toNat := by
        rw [Nat.mul_assoc]
        exact congrArg _ (Nat.pow_add ..)
    _ = y.significand * Nat.pow 2 (y.exponent.toNat + (-x.exponent).toNat) := by
        rw [hsize, Nat.mul_assoc]
        exact congrArg _ (Nat.pow_add ..).symm
    _ = y.significand * Nat.pow 2 (y.exponent - x.exponent).toNat *
          Nat.pow 2 (x.exponent.toNat + (-y.exponent).toNat) := by
        rw [hpowers, Nat.mul_assoc]
        exact congrArg _ (Nat.pow_add ..)

theorem ratio_eq (x : Binary64) :
    x.ratio.1 = if x.negative then -(x.ratio.1.natAbs : Int) else x.ratio.1.natAbs := by
  rw [natAbs_ratio, Int.natCast_mul]
  rfl

theorem den_ne_zero (x : Binary64) : x.ratio.2 ≠ 0 := Nat.ne_of_gt (Nat.two_pow_pos _)

theorem isZero_iff (x : Binary64) : x.isZero = true ↔ x.ratio.1 = 0 := by
  have hpower : Nat.pow 2 x.exponent.toNat ≠ 0 := Nat.ne_of_gt (Nat.two_pow_pos _)
  rw [← Int.natAbs_eq_zero, natAbs_ratio, Nat.mul_eq_zero, or_iff_left hpower]
  exact beq_iff_eq

/-- Floats are the same exactly if they have one value. -/
theorem same_iff (x y : Binary64) :
    x.same y = true ↔ x.ratio.1 * y.ratio.2 = y.ratio.1 * x.ratio.2 := by
  simp only [same, Bool.or_eq_true, Bool.and_eq_true, isZero_iff, beq_iff_eq]
  constructor
  · rintro (⟨hx, hy⟩ | rfl)
    · rw [hx, hy, Int.zero_mul, Int.zero_mul]
    · rfl
  · intro h
    obtain ⟨hsignificand, hexponent⟩ :
        x.significand = y.significand ∧ x.exponent = y.exponent := by
      rcases Int.le_total x.exponent y.exponent with hle | hle
      · exact parts_eq hle h
      · exact (parts_eq hle h.symm).imp Eq.symm Eq.symm
    have hden : x.ratio.2 = y.ratio.2 :=
      congrArg (fun exponent : Int => Nat.pow 2 (-exponent).toNat) hexponent
    rw [hden] at h
    have hnum : x.ratio.1 = y.ratio.1 :=
      Int.eq_of_mul_eq_mul_right (Int.natCast_ne_zero.mpr (den_ne_zero y)) h
    by_cases hsign : x.negative = y.negative
    · right
      cases x
      cases y
      simp_all
    · -- A number that is its own opposite is zero.
      left
      have hx := ratio_eq x
      have hy := ratio_eq y
      rw [Bool.eq_not_of_ne hsign] at hx
      cases hnegative : y.negative <;>
        simp only [hnegative, Bool.not_true, Bool.not_false, if_true, if_false,
          Bool.false_eq_true] at hx hy <;>
        omega

end Binary64

namespace Number

/-- The value of a number. -/
def value (n : Number) : Rat := mkRat n.ratio.1 n.ratio.2

def isFloat : Number → Bool
  | .integer _ _ => false
  | .float _ => true

theorem den_ne_zero (n : Number) : n.ratio.2 ≠ 0 := by
  cases n with
  | integer value bounds => exact Nat.one_ne_zero
  | float x => exact x.den_ne_zero

/-- Numbers are the same exactly if they are of one kind and have one value. -/
theorem same_iff (a b : Number) : a.same b = true ↔ a.isFloat = b.isFloat ∧ a.value = b.value := by
  have hvalue : a.value = b.value ↔ a.ratio.1 * b.ratio.2 = b.ratio.1 * a.ratio.2 :=
    Rat.mkRat_eq_iff a.den_ne_zero b.den_ne_zero
  rw [hvalue]
  cases a with
  | integer m hm =>
      cases b with
      | integer n hn => simp [same, isFloat, ratio]
      | float y => simp [same, isFloat]
  | float x =>
      cases b with
      | integer n hn => simp [same, isFloat]
      | float y => exact (x.same_iff y).trans (and_iff_right rfl).symm

theorem isZero_iff (n : Number) : n.isZero = true ↔ n.ratio.1 = 0 := by
  cases n with
  | integer value bounds => simp [isZero, ratio]
  | float x => exact x.isZero_iff

theorem same_self (n : Number) : n.same n = true := (same_iff n n).mpr ⟨rfl, rfl⟩

theorem same_euclid {a b c : Number} (h : a.same b = true) (h' : a.same c = true) :
    b.same c = true := by
  obtain ⟨hkind, hvalue⟩ := (same_iff a b).mp h
  obtain ⟨hkind', hvalue'⟩ := (same_iff a c).mp h'
  exact (same_iff b c).mpr ⟨hkind.symm.trans hkind', hvalue.symm.trans hvalue'⟩

/-- The two zeros among the floats are the same and both are zero. -/
theorem isZero_of_same {a b : Number} (h : a.same b = true) : a.isZero = b.isZero := by
  have hzero : ∀ n : Number, n.isZero = true ↔ n.value = 0 := fun n =>
    n.isZero_iff.trans (Rat.mkRat_eq_zero n.den_ne_zero).symm
  rw [Bool.eq_iff_iff, hzero, hzero, ((same_iff a b).mp h).2]

end Number

namespace Value

mutual
theorem same_self : ∀ v : Value, v.same v
  | .null => rfl
  | .bool b => by simp [same]
  | .number n => n.same_self
  | .string s => by simp [same]
  | .safe s => by simp [same]
  | .array items => sameItems_self items
  | .object fields => sameFields_self fields
  | .lazy _ _ => by simp [same]
  | .endless _ => by simp [same]
termination_by structural v => v

theorem sameItems_self : ∀ items : List Value, sameItems items items
  | [] => rfl
  | v :: rest => by simp [sameItems, same_self v, sameItems_self rest]
termination_by structural items => items

theorem sameFields_self : ∀ fields : List (String × Value), sameFields fields fields
  | [] => rfl
  | (_, v) :: rest => by simp [sameFields, same_self v, sameFields_self rest]
termination_by structural fields => fields
end

/-- Items are the same one by one. -/
def ItemsMatch (items others : List Value) : Prop :=
  List.Forall₂ (fun a b => a.same b = true) items others

/-- Fields have the same keys and values one by one. -/
def FieldsMatch (fields others : List (String × Value)) : Prop :=
  List.Forall₂ (fun a b => a.1 = b.1 ∧ a.2.same b.2 = true) fields others

theorem sameItems_iff_match {items others : List Value} :
    sameItems items others = true ↔ ItemsMatch items others := by
  unfold ItemsMatch
  induction items generalizing others with
  | nil => cases others <;> simp [sameItems]
  | cons a items ih => cases others <;> simp [sameItems, ih]

theorem sameFields_iff_match {fields others : List (String × Value)} :
    sameFields fields others = true ↔ FieldsMatch fields others := by
  unfold FieldsMatch
  induction fields generalizing others with
  | nil => cases others <;> simp [sameFields]
  | cons a fields ih => cases others <;> simp [sameFields, ih]

/-- The ways in which values can be the same. -/
inductive Matches : Value → Value → Prop
  | null : Matches .null .null
  | bool (b : Bool) : Matches (.bool b) (.bool b)
  | number {m n : Number} (h : m.same n = true) : Matches (.number m) (.number n)
  | string (s : String) : Matches (.string s) (.string s)
  | safe (s : String) : Matches (.safe s) (.safe s)
  | array {items others : List Value} (h : ItemsMatch items others) :
      Matches (.array items) (.array others)
  | object {fields others : List (String × Value)} (h : FieldsMatch fields others) :
      Matches (.object fields) (.object others)
  | lazy (identity : Nat) (result other : Value) :
      Matches (.lazy identity result) (.lazy identity other)
  | endless (identity : Nat) : Matches (.endless identity) (.endless identity)

theorem same_iff_matches (a b : Value) : a.same b = true ↔ Matches a b := by
  constructor
  · intro h
    cases a <;> cases b <;> simp only [same, beq_iff_eq, Bool.false_eq_true] at h
    case null => exact .null
    case bool => exact h ▸ .bool _
    case number => exact .number h
    case string => exact h ▸ .string _
    case safe => exact h ▸ .safe _
    case array => exact .array (sameItems_iff_match.mp h)
    case object => exact .object (sameFields_iff_match.mp h)
    case lazy => exact h ▸ .lazy _ _ _
    case endless => exact h ▸ .endless _
  · intro h
    cases h with
    | null => rfl
    | number h => exact h
    | array h => exact sameItems_iff_match.mpr h
    | object h => exact sameFields_iff_match.mpr h
    | bool | string | safe | lazy | endless => exact beq_self_eq_true _

/- Values that are the same as a third one are the same as each other. With
`same_self` that makes sameness symmetric and transitive. -/
mutual
theorem same_euclid :
    ∀ a b c : Value, a.same b = true → a.same c = true → b.same c = true
  | .array items, b, c, h, h' => by
      cases (same_iff_matches _ b).mp h with
      | array hb =>
          cases (same_iff_matches _ c).mp h' with
          | array hc =>
              exact (same_iff_matches _ _).mpr (.array (ItemsMatch.euclid items _ _ hb hc))
  | .object fields, b, c, h, h' => by
      cases (same_iff_matches _ b).mp h with
      | object hb =>
          cases (same_iff_matches _ c).mp h' with
          | object hc =>
              exact (same_iff_matches _ _).mpr (.object (FieldsMatch.euclid fields _ _ hb hc))
  | .number _, b, c, h, h' => by
      cases (same_iff_matches _ b).mp h with
      | number hb =>
          cases (same_iff_matches _ c).mp h' with
          | number hc => exact Number.same_euclid hb hc
  | .lazy identity _, b, c, h, h' => by
      cases (same_iff_matches _ b).mp h
      cases (same_iff_matches _ c).mp h'
      exact beq_self_eq_true identity
  | .null, b, _, h, h' | .bool _, b, _, h, h' | .string _, b, _, h, h' | .safe _, b, _, h, h'
  | .endless _, b, _, h, h' => by
      cases (same_iff_matches _ b).mp h
      exact h'
termination_by structural a => a

theorem ItemsMatch.euclid :
    ∀ as bs cs : List Value, ItemsMatch as bs → ItemsMatch as cs → ItemsMatch bs cs
  | [], _, _, .nil, .nil => .nil
  | a :: as, _, _, .cons hb hbs, .cons hc hcs =>
      .cons (same_euclid a _ _ hb hc) (ItemsMatch.euclid as _ _ hbs hcs)
termination_by structural as => as

theorem FieldsMatch.euclid :
    ∀ as bs cs : List (String × Value), FieldsMatch as bs → FieldsMatch as cs →
      FieldsMatch bs cs
  | [], _, _, .nil, .nil => .nil
  | (_, a) :: as, _, _, .cons hb hbs, .cons hc hcs =>
      .cons ⟨hb.1.symm.trans hc.1, same_euclid a _ _ hb.2 hc.2⟩ (FieldsMatch.euclid as _ _ hbs hcs)
termination_by structural as => as
end

theorem same_equivalence : Equivalence fun a b : Value => a.same b = true where
  refl := same_self
  symm {a b} h := same_euclid a b a h (same_self a)
  trans {a b c} h h' := same_euclid b a c (same_euclid a b a h (same_self a)) h'

/-- What a value is. Deferred values are of one kind, whether they settle or not. -/
inductive Kind where
  | null
  | bool
  | number
  | string
  | safe
  | array
  | object
  | deferred

def kind : Value → Kind
  | .null => .null
  | .bool _ => .bool
  | .number _ => .number
  | .string _ => .string
  | .safe _ => .safe
  | .array _ => .array
  | .object _ => .object
  | .lazy _ _ | .endless _ => .deferred

theorem kind_of_same {a b : Value} (h : a.same b = true) : a.kind = b.kind := by
  cases (same_iff_matches a b).mp h <;> rfl

theorem kind_eq_deferred_iff (v : Value) : v.kind = .deferred ↔ v.isLazy = true := by
  cases v <;> simp [kind, isLazy]

/-- The keys of an object, in their order. -/
def fieldNames? : Value → Option (List String)
  | .object fields => some (fields.map Prod.fst)
  | _ => none

/-- Both are there and the same, or neither is there. -/
def SameFound (a b : Option Value) : Prop :=
  Option.Rel (fun x y : Value => x.same y = true) a b

/-- Values of which all questions have the same answers. -/
structure Agree (a b : Value) : Prop where
  isTruthy_eq : a.isTruthy = b.isTruthy
  isEmpty_eq : a.isEmpty = b.isEmpty
  asText_eq : a.asText? = b.asText?
  length_eq : a.items?.map List.length = b.items?.map List.length
  fieldNames_eq : a.fieldNames? = b.fieldNames?
  lookups : ∀ path : String, SameFound (a.lookup? path) (b.lookup? path)

theorem ItemsMatch.getElem? {as bs : List Value} (h : ItemsMatch as bs) (i : Nat) :
    SameFound as[i]? bs[i]? := by
  induction h generalizing i with
  | nil => exact .none
  | cons hab _ ih =>
      cases i with
      | zero => exact .some hab
      | succ i => exact ih i

theorem FieldsMatch.names_eq {as bs : List (String × Value)} (h : FieldsMatch as bs) :
    as.map Prod.fst = bs.map Prod.fst := by
  induction h with
  | nil => rfl
  | cons hab _ ih => rw [List.map_cons, List.map_cons, hab.1, ih]

theorem FieldsMatch.field? {as bs : List (String × Value)} (h : FieldsMatch as bs)
    (key : String) : SameFound (Stencil.field? key as) (Stencil.field? key bs) := by
  induction h with
  | nil => exact .none
  | cons hab _ ih =>
      rw [Stencil.field?, Stencil.field?, hab.1]
      split
      · exact .some hab.2
      · exact ih

theorem get?_of_same {a b : Value} (h : a.same b = true) (key : String) :
    SameFound (a.get? key) (b.get? key) := by
  cases (same_iff_matches a b).mp h with
  | array hitems =>
      simp only [get?]
      cases index? key with
      | none => exact .none
      | some i => exact hitems.getElem? i
  | object hfields => exact hfields.field? key
  | _ => exact .none

theorem lookup?_of_same {a b : Value} (h : a.same b = true) (path : String) :
    SameFound (a.lookup? path) (b.lookup? path) := by
  unfold lookup?
  induction keys path generalizing a b with
  | nil => exact .some h
  | cons key keys ih =>
      rw [List.foldlM_cons, List.foldlM_cons]
      have hnext := get?_of_same h key
      generalize a.get? key = x at hnext ⊢
      generalize b.get? key = y at hnext ⊢
      cases hnext with
      | none => exact .none
      | some hxy => exact ih hxy

theorem agree_of_same {a b : Value} (h : a.same b = true) : Agree a b := by
  have hlookups := lookup?_of_same h
  cases (same_iff_matches a b).mp h with
  | number hnumber =>
      have hzero := Number.isZero_of_same hnumber
      exact ⟨congrArg Bool.not hzero, rfl, rfl, rfl, rfl, hlookups⟩
  | @array items others hitems =>
      have hlength := hitems.length_eq
      have hempty : items.isEmpty = others.isEmpty := by
        rw [Bool.eq_iff_iff, List.isEmpty_iff_length_eq_zero, List.isEmpty_iff_length_eq_zero,
          hlength]
      exact ⟨rfl, hempty, rfl, congrArg some hlength, rfl, hlookups⟩
  | object hfields =>
      have hnames := hfields.names_eq
      exact ⟨rfl, rfl, rfl, rfl, congrArg some hnames, hlookups⟩
  | null | bool | string | safe | lazy | endless => exact ⟨rfl, rfl, rfl, rfl, rfl, hlookups⟩

/-- Sameness of values is an equivalence that respects all that is asked of them.
It never relates values of two kinds, so safe text is not the same as the plain
text, nor a deferred value the same as what it resolves to. Values that are the
same are both true or both not, both empty or both not, have one text, one length
and one list of keys, and every path finds values in them that are the same, or
nothing in either of them. -/
theorem same_congruence :
    (Equivalence fun a b : Value => a.same b = true) ∧
    (∀ a b : Value, a.same b = true → a.kind = b.kind) ∧
    (∀ text : String, (Value.safe text).same (.string text) = false) ∧
    (∀ v : Value, v.isLazy → v.same v.resolve.value = false) ∧
    ∀ a b : Value, a.same b = true → Agree a b := by
  refine ⟨same_equivalence, fun _ _ => kind_of_same, fun _ => rfl, fun v hlazy => ?_,
    fun _ _ => agree_of_same⟩
  rw [Bool.eq_false_iff]
  intro h
  have hkind := (kind_of_same h).symm.trans ((kind_eq_deferred_iff v).mpr hlazy)
  exact resolveWithin_not_isLazy maxLazyDepth v ((kind_eq_deferred_iff _).mp hkind)

/-- The two zeros are the same, and they make the same of what they stand in: both
are found, and both count as false. -/
theorem same_congruence_zeros :
    let a := Value.object [("k", .array [.number (.float (.zero true)), .lazy 0 .null])]
    let b := Value.object [("k", .array [.number (.float (.zero false)), .lazy 0 .null])]
    a.same b = true ∧ Agree a b ∧ b.same a = true ∧
      a.lookup? "k.0" = some (.number (.float (.zero true))) ∧
      SameFound (some (.number (.float (.zero true)))) (b.lookup? "k.0") := by
  intro a b
  obtain ⟨hequivalence, _, _, _, hagree⟩ := same_congruence
  have hsame : a.same b = true := by decide +kernel
  exact ⟨hsame, hagree a b hsame, hequivalence.symm hsame, rfl, (hagree a b hsame).lookups "k.0"⟩

end Value

end Stencil
