import Mathlib.Data.List.Basic
import Stencil.Text.Basic

/-!
Numerals. The value of a list of digits is the number that it writes to base ten,
with leading zeros or without; a number has one numeral without them. Main
statements: which lists of characters write a number, and which number that is.
-/

namespace Stencil

namespace Text

theorem baseDigitValue?_isDigit {c : Char} (h : c.isDigit = true) :
    baseDigitValue? 10 c = some (c.toNat - '0'.toNat) := by
  have hbounds : '0' ≤ c ∧ c ≤ '9' := by
    simp only [Char.isDigit, Bool.and_eq_true, decide_eq_true_eq] at h
    exact h
  have hcode : c.toNat ≤ 57 := hbounds.2
  have hzero : '0'.toNat = 48 := rfl
  have hvalue : c.toNat - '0'.toNat < 10 := by omega
  simp only [baseDigitValue?, if_pos hbounds, if_pos hvalue]

/-- The value of digits is the number that they write to base ten. -/
theorem digitsValue_eq {digits : List Char} (h : ∀ c ∈ digits, c.isDigit = true) :
    digitsValue 10 digits = Nat.ofDigitChars 10 digits 0 := by
  have hfold : ∀ start : Nat,
      digits.foldl (fun acc c => acc * 10 + (baseDigitValue? 10 c).getD 0) start =
        Nat.ofDigitChars 10 digits start := by
    induction digits with
    | nil => exact fun _ => rfl
    | cons c rest ih =>
        intro start
        rw [List.foldl_cons, Nat.ofDigitChars_cons,
          baseDigitValue?_isDigit (h c List.mem_cons_self), Option.getD_some,
          Nat.mul_comm start, ih fun d member => h d (List.mem_cons_of_mem c member)]
  exact hfold 0

theorem natOfDigits?_eq_some_iff {digits : List Char} {n : Nat} :
    natOfDigits? digits = some n ↔
      digits ≠ [] ∧ (∀ c ∈ digits, c.isDigit = true) ∧ Nat.ofDigitChars 10 digits 0 = n := by
  simp only [natOfDigits?, List.all_eq_true]
  constructor
  · intro h
    split at h
    case isTrue hdigits =>
      rw [Option.some.injEq, digitsValue_eq hdigits.2] at h
      exact ⟨hdigits.1, hdigits.2, h⟩
    case isFalse => cases h
  · rintro ⟨hne, hdigits, rfl⟩
    rw [if_pos ⟨hne, hdigits⟩, digitsValue_eq hdigits]

/-- A numeral is read back as the number that it was written for. -/
theorem digitsValue_toDigits (n : Nat) : digitsValue 10 (Nat.toDigits 10 n) = n := by
  have hdigits : ∀ c ∈ Nat.toDigits 10 n, c.isDigit = true := fun c =>
    Nat.isDigit_of_mem_toDigits (by decide) (by decide)
  rw [digitsValue_eq hdigits, Nat.ofDigitChars_toDigits (by decide) (by decide)]

/-- Only the numeral of zero starts with a zero. -/
theorem head?_toDigits {n : Nat} (h : 0 < n) : (Nat.toDigits 10 n).head? ≠ some '0' := by
  induction n using Nat.strongRecOn with
  | ind n ih =>
      by_cases hsmall : n < 10
      · rw [Nat.toDigits_of_lt_base hsmall, List.head?_cons]
        intro hzero
        have hchar : Nat.digitChar n = '0' := Option.some.inj hzero
        have hvalue := Nat.toNat_digitChar_of_lt_ten hsmall
        rw [hchar] at hvalue
        have : '0'.toNat = 48 := rfl
        omega
      · rw [Nat.toDigits_of_base_le (by decide) (by omega),
          List.head?_append_of_ne_nil _ Nat.toDigits_ne_nil]
        exact ih (n / 10) (by omega) (by omega)

end Text

end Stencil
