import Mathlib.Data.List.Basic
import EventRelay.Proofs.Text.Utf8

/-!
# ASCII characters

An ASCII character is one byte, which gives the character back. Only letters change when a text is
written in lower case.
-/

namespace EventRelay.Text

theorem isUpper_iff {c : Char} : c.isUpper = true ↔ 65 ≤ c.toNat ∧ c.toNat ≤ 90 :=
  decide_eq_true_iff.trans (and_congr UInt32.le_iff_toNat_le UInt32.le_iff_toNat_le)

theorem isLower_iff {c : Char} : c.isLower = true ↔ 97 ≤ c.toNat ∧ c.toNat ≤ 122 :=
  Bool.and_eq_true_iff.trans (and_congr (decide_eq_true_iff.trans UInt32.le_iff_toNat_le)
    (decide_eq_true_iff.trans UInt32.le_iff_toNat_le))

/-- Letters and digits are what is alphanumeric. -/
theorem isAlphanum_iff {c : Char} :
    c.isAlphanum = true ↔ (c.isUpper = true ∨ c.isLower = true) ∨ c.isDigit = true :=
  Bool.or_eq_true_iff.trans (or_congr_left Bool.or_eq_true_iff)

/-- A character that changes in lower case is a capital letter. -/
theorem toLower_cases (c : Char) :
    c.toLower = c ∨ c.isUpper = true ∧ c.toLower.isLower = true := by
  by_cases upper : c.isUpper = true
  · have letters : ∀ n < 26, (Char.ofNat (65 + n)).toLower.isLower = true := by decide
    have range := isUpper_iff.mp upper
    have lower := letters (c.toNat - 65) (by omega)
    rw [Nat.add_sub_cancel' range.1, Char.ofNat_toNat] at lower
    exact .inr ⟨upper, lower⟩
  · exact .inl (dif_neg fun capital => upper (decide_eq_true capital))

/-- Letters and digits are in ASCII, below the delete character. -/
theorem ascii_of_isAlphanum {c : Char} (letter : c.isAlphanum = true) : c.toNat < 0x7f := by
  rcases isAlphanum_iff.mp letter with (upper | lower) | digit
  · have range := isUpper_iff.mp upper
    omega
  · have range := isLower_iff.mp lower
    omega
  · exact Nat.lt_of_le_of_lt (Char.isDigit_iff_toNat.mp digit).2 (by decide)

/-- The bytes of an ASCII text are its characters. -/
theorem utf8Bytes_of_ascii {s : String} (ascii : ∀ c ∈ s.toList, c.toNat ≤ 127) :
    utf8Bytes s = s.toList.map fun c => UInt8.ofNat c.toNat := by
  rw [utf8Bytes_eq_encode, encode, List.map_eq_flatMap]
  refine List.flatMap_congr fun c member => ?_
  have small : c.utf8Size = 1 := Char.utf8Size_eq_one_iff.mpr (ascii c member)
  rw [String.utf8EncodeChar_eq_singleton small]
  rfl

/-- The byte of an ASCII character gives the character back. -/
theorem ofNat_toNat_byte {c : Char} (ascii : c.toNat ≤ 127) :
    Char.ofNat (UInt8.ofNat c.toNat).toNat = c := by
  rw [UInt8.toNat_ofNat_of_lt' (show c.toNat < 256 by omega), Char.ofNat_toNat]

end EventRelay.Text
