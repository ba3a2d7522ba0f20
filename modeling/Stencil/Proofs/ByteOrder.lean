import Mathlib.Data.List.Lex
import Mathlib.Tactic.SplitIfs

/-!
The order of strings. Strings are compared character by character, and a
character is as great as its code point. Bytes give the same order, for a
greater character has greater bytes in UTF-8, and no encoding of a character
begins that of another one.
-/

namespace Stencil.Text

/-- The bytes of a string in UTF-8. -/
def bytes (s : String) : List UInt8 := s.toByteArray.data.toList

theorem bytes_eq (s : String) : bytes s = s.toList.flatMap String.utf8EncodeChar := by
  unfold bytes
  rw [← String.utf8Encode_toList]
  simp [List.utf8Encode]

/-- A list of bytes is less than another one if its first byte is, or if the
first bytes are equal and the rest is less. -/
theorem bytes_cons_lt {m n : Nat} {first second : List UInt8} (hm : m < 256) (hn : n < 256)
    (hle : m ≤ n) (hrest : m = n → first < second) :
    UInt8.ofNat m :: first < UInt8.ofNat n :: second := by
  rw [List.cons_lt_cons_iff, UInt8.lt_iff_toNat_lt, UInt8.toNat_ofNat', UInt8.toNat_ofNat']
  rcases Nat.lt_or_eq_of_le hle with hless | hsame
  · left
    omega
  · right
    exact ⟨by rw [hsame], hrest hsame⟩

theorem code_lt (c : Char) : c.val.toNat < 0x110000 := by
  have hvalid := c.valid
  unfold UInt32.isValidChar Nat.isValidChar at hvalid
  omega

/-- A greater character has greater bytes, whatever comes after. -/
theorem utf8EncodeChar_lt {c d : Char} (h : c < d) (first second : List UInt8) :
    String.utf8EncodeChar c ++ first < String.utf8EncodeChar d ++ second := by
  have hcode : c.val.toNat < d.val.toNat := h
  have hc := code_lt c
  have hd := code_lt d
  unfold String.utf8EncodeChar
  generalize c.val.toNat = m at hcode hc
  generalize d.val.toNat = n at hcode hd
  dsimp only
  split_ifs
  all_goals simp only [List.cons_append, List.nil_append]
  -- Byte by byte: as long as the bytes are equal, so are the leading bits.
  all_goals
    repeat first | omega | refine bytes_cons_lt (by omega) (by omega) (by omega) fun _ => ?_

theorem flatMap_lt {cs ds : List Char} (h : cs < ds) :
    cs.flatMap String.utf8EncodeChar < ds.flatMap String.utf8EncodeChar := by
  induction cs generalizing ds with
  | nil =>
      cases ds with
      | nil => simp at h
      | cons d ds =>
          have hne : String.utf8EncodeChar d ≠ [] := String.utf8EncodeChar_ne_nil
          cases hd : String.utf8EncodeChar d with
          | nil => exact absurd hd hne
          | cons b bs => simp [hd]
  | cons c cs ih =>
      cases ds with
      | nil => simp at h
      | cons d ds =>
          rw [List.flatMap_cons, List.flatMap_cons]
          rcases List.cons_lt_cons_iff.mp h with hless | ⟨rfl, hrest⟩
          · exact utf8EncodeChar_lt hless _ _
          · exact List.append_left_lt (ih hrest)

/-- Strings in ascending order have their bytes in ascending order. -/
theorem bytes_lt {s t : String} (h : s < t) : bytes s < bytes t := by
  rw [bytes_eq, bytes_eq]
  exact flatMap_lt h

end Stencil.Text
