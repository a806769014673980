import Mathlib.Data.List.Basic
import Mathlib.Tactic.SplitIfs
import EventRelay.Text.Utf8

/-!
# Encoded text

A character is written with one to four bytes. The first byte tells how many follow and bounds the
second one; the others are continuation bytes. The boundaries of a written text are the lengths of
its initial segments, so that a text is cut at a boundary between two of its characters.
-/

namespace EventRelay.Text

/-! ## Bytes of a text -/

theorem encode_cons (c : Char) (cs : List Char) :
    encode (c :: cs) = String.utf8EncodeChar c ++ encode cs :=
  List.flatMap_cons

theorem encode_append (xs ys : List Char) : encode (xs ++ ys) = encode xs ++ encode ys :=
  List.flatMap_append

/-- The length of a text is the number of its bytes. -/
theorem length_encode (cs : List Char) : (encode cs).length = byteLength cs := by
  induction cs with
  | nil => rfl
  | cons c cs ih =>
    rw [encode_cons, List.length_append, String.length_utf8EncodeChar, ih, byteLength]

theorem byteLength_append (xs ys : List Char) :
    byteLength (xs ++ ys) = byteLength xs + byteLength ys := by
  rw [← length_encode, encode_append, List.length_append, length_encode, length_encode]

theorem utf8Bytes_eq_encode (s : String) : utf8Bytes s = encode s.toList := by
  rw [utf8Bytes, String.toUTF8_eq_toByteArray, ← String.utf8Encode_toList, List.utf8Encode,
    List.toList_data_toByteArray, encode]

theorem byteLength_toList (s : String) : byteLength s.toList = s.utf8ByteSize := by
  rw [← length_encode, ← utf8Bytes_eq_encode, utf8Bytes, Array.length_toList,
    String.toUTF8_eq_toByteArray]
  exact String.size_toByteArray

theorem utf8Bytes_append (s t : String) : utf8Bytes (s ++ t) = utf8Bytes s ++ utf8Bytes t := by
  rw [utf8Bytes_eq_encode, utf8Bytes_eq_encode, utf8Bytes_eq_encode, String.toList_append,
    encode_append]

/-! ## Bytes of a character -/

/-- Two bytes begin a character with `count` bytes after the first one. -/
def Leads (count : Nat) (a b : UInt8) : Prop :=
  ∃ low high, followers a = some (count, low, high) ∧ low ≤ b ∧ b ≤ high

/-- The leading bytes, by number. -/
theorem followers_eq (a : UInt8) : followers a =
    if 194 ≤ a.toNat ∧ a.toNat ≤ 223 then some (1, 0x80, 0xbf)
    else if a.toNat = 224 then some (2, 0xa0, 0xbf)
    else if a.toNat = 237 then some (2, 0x80, 0x9f)
    else if 225 ≤ a.toNat ∧ a.toNat ≤ 239 then some (2, 0x80, 0xbf)
    else if a.toNat = 240 then some (3, 0x90, 0xbf)
    else if 241 ≤ a.toNat ∧ a.toNat ≤ 243 then some (3, 0x80, 0xbf)
    else if a.toNat = 244 then some (3, 0x80, 0x8f)
    else none := by
  simp [followers, UInt8.le_iff_toNat_le, ← UInt8.toNat_inj]

/-- Two bytes begin a character exactly in these ranges. -/
theorem leads_iff {count : Nat} {a b : UInt8} : Leads count a b ↔
    (128 ≤ b.toNat ∧ b.toNat ≤ 191) ∧
      (count = 1 ∧ 194 ≤ a.toNat ∧ a.toNat ≤ 223 ∨
        count = 2 ∧ (224 ≤ a.toNat ∧ a.toNat ≤ 239) ∧ (a.toNat = 224 → 160 ≤ b.toNat) ∧
          (a.toNat = 237 → b.toNat ≤ 159) ∨
        count = 3 ∧ (240 ≤ a.toNat ∧ a.toNat ≤ 244) ∧ (a.toNat = 240 → 144 ≤ b.toNat) ∧
          (a.toNat = 244 → b.toNat ≤ 143)) := by
  have row (n : Nat) (l h : UInt8) : (∃ low high, some (n, l, h) = some (count, low, high) ∧
      low ≤ b ∧ b ≤ high) ↔ n = count ∧ l.toNat ≤ b.toNat ∧ b.toNat ≤ h.toNat := by
    constructor
    · rintro ⟨low, high, ⟨⟩, second⟩
      exact ⟨rfl, UInt8.le_iff_toNat_le.mp second.1, UInt8.le_iff_toNat_le.mp second.2⟩
    · rintro ⟨rfl, second⟩
      exact ⟨l, h, rfl, UInt8.le_iff_toNat_le.mpr second.1, UInt8.le_iff_toNat_le.mpr second.2⟩
  rw [Leads, followers_eq]
  split_ifs
  all_goals simp only [row, UInt8.reduceToNat, false_and, exists_false, false_iff]
  all_goals omega

theorem isContinuation_iff (b : UInt8) :
    isContinuation b = true ↔ 128 ≤ b.toNat ∧ b.toNat ≤ 191 := by
  simp [isContinuation, UInt8.le_iff_toNat_le]

/-- How a character is written. -/
inductive Written : Char → List UInt8 → Prop
  /-- A character of ASCII is one byte. -/
  | one {a : UInt8} (small : a < 0x80) : Written (Char.ofNat a.toNat) [a]
  /-- One byte follows. -/
  | two {a b : UInt8} (leads : Leads 1 a b) :
    Written (Char.ofNat (appendBits (leadingBits 1 a) b)) [a, b]
  /-- Two bytes follow. -/
  | three {a b c : UInt8} (leads : Leads 2 a b) (third : isContinuation c = true) :
    Written (Char.ofNat (appendBits (appendBits (leadingBits 2 a) b) c)) [a, b, c]
  /-- Three bytes follow. -/
  | four {a b c d : UInt8} (leads : Leads 3 a b) (third : isContinuation c = true)
    (fourth : isContinuation d = true) :
    Written (Char.ofNat (appendBits (appendBits (appendBits (leadingBits 3 a) b) c) d)) [a, b, c, d]

/-- The bytes of a character with a given number. -/
private theorem utf8EncodeChar_ofNat {n : Nat} (valid : n.isValidChar) :
    String.utf8EncodeChar (Char.ofNat n) =
      if n ≤ 127 then [UInt8.ofNat n]
      else if n ≤ 2047 then [UInt8.ofNat (n / 64 % 32 + 192), UInt8.ofNat (n % 64 + 128)]
      else if n ≤ 65535 then
        [UInt8.ofNat (n / 4096 % 16 + 224), UInt8.ofNat (n / 64 % 64 + 128),
          UInt8.ofNat (n % 64 + 128)]
      else
        [UInt8.ofNat (n / 262144 % 8 + 240), UInt8.ofNat (n / 4096 % 64 + 128),
          UInt8.ofNat (n / 64 % 64 + 128), UInt8.ofNat (n % 64 + 128)] := by
  have number : (Char.ofNat n).val.toNat = n := by
    rw [Char.ofNat, dif_pos valid]
    rfl
  rw [String.utf8EncodeChar, number]

private theorem ofNat_of_toNat {a : UInt8} {n : Nat} (h : n = a.toNat) : UInt8.ofNat n = a := by
  rw [h, UInt8.ofNat_toNat]

/-- The bytes that are listed for a character are its bytes. -/
theorem Written.bytes {c : Char} {bytes : List UInt8} (h : Written c bytes) :
    String.utf8EncodeChar c = bytes := by
  cases h with
  | @one a small =>
    have range : a.toNat < 128 := UInt8.lt_iff_toNat_lt.mp small
    rw [utf8EncodeChar_ofNat (.inl (by omega)), if_pos (by omega), UInt8.ofNat_toNat]
  | @two a b leads =>
    have ranges := leads_iff.mp leads
    have bits : appendBits (leadingBits 1 a) b = a.toNat % 32 * 64 + b.toNat % 64 := rfl
    rw [bits, utf8EncodeChar_ofNat (.inl (by omega)), if_neg (by omega), if_pos (by omega),
      ofNat_of_toNat (a := a) (by omega), ofNat_of_toNat (a := b) (by omega)]
  | @three a b c leads third =>
    have ranges := leads_iff.mp leads
    have last := (isContinuation_iff c).mp third
    have bits : appendBits (appendBits (leadingBits 2 a) b) c =
        (a.toNat % 16 * 64 + b.toNat % 64) * 64 + c.toNat % 64 := rfl
    rw [bits, utf8EncodeChar_ofNat (by unfold Nat.isValidChar; omega), if_neg (by omega),
      if_neg (by omega), if_pos (by omega), ofNat_of_toNat (a := a) (by omega),
      ofNat_of_toNat (a := b) (by omega), ofNat_of_toNat (a := c) (by omega)]
  | @four a b c d leads third fourth =>
    have ranges := leads_iff.mp leads
    have later := (isContinuation_iff c).mp third
    have last := (isContinuation_iff d).mp fourth
    have bits : appendBits (appendBits (appendBits (leadingBits 3 a) b) c) d =
        ((a.toNat % 8 * 64 + b.toNat % 64) * 64 + c.toNat % 64) * 64 + d.toNat % 64 := rfl
    rw [bits, utf8EncodeChar_ofNat (by unfold Nat.isValidChar; omega), if_neg (by omega),
      if_neg (by omega), if_neg (by omega), ofNat_of_toNat (a := a) (by omega),
      ofNat_of_toNat (a := b) (by omega), ofNat_of_toNat (a := c) (by omega),
      ofNat_of_toNat (a := d) (by omega)]

private theorem exists_byte {n : Nat} (h : n < 256) :
    ∃ a : UInt8, UInt8.ofNat n = a ∧ a.toNat = n :=
  ⟨UInt8.ofNat n, rfl, UInt8.toNat_ofNat_of_lt' h⟩

/-- Every character is written in one of these ways. -/
theorem written (c : Char) : Written c (String.utf8EncodeChar c) := by
  have valid : c.toNat.isValidChar := c.valid
  have bytes := utf8EncodeChar_ofNat valid
  rw [Char.ofNat_toNat] at bytes
  rw [bytes]
  unfold Nat.isValidChar at valid
  -- The bytes are named by their numbers, so that the ranges are arithmetic.
  split_ifs
  · obtain ⟨a, ha, first⟩ := exists_byte (n := c.toNat) (by omega)
    have listed := Written.one (a := a) (UInt8.lt_iff_toNat_lt.mpr (by simp; omega))
    rwa [first, Char.ofNat_toNat, ← ha] at listed
  · obtain ⟨a, ha, first⟩ := exists_byte (n := c.toNat / 64 % 32 + 192) (by omega)
    obtain ⟨b, hb, second⟩ := exists_byte (n := c.toNat % 64 + 128) (by omega)
    have listed := Written.two (a := a) (b := b) (leads_iff.mpr ⟨by omega, by omega⟩)
    have bits : appendBits (leadingBits 1 a) b = c.toNat := by
      change a.toNat % 32 * 64 + b.toNat % 64 = _
      omega
    rwa [bits, Char.ofNat_toNat, ← ha, ← hb] at listed
  · obtain ⟨a, ha, first⟩ := exists_byte (n := c.toNat / 4096 % 16 + 224) (by omega)
    obtain ⟨b, hb, second⟩ := exists_byte (n := c.toNat / 64 % 64 + 128) (by omega)
    obtain ⟨d, hd, third⟩ := exists_byte (n := c.toNat % 64 + 128) (by omega)
    have listed := Written.three (a := a) (b := b) (c := d)
      (leads_iff.mpr ⟨by omega, by omega⟩) ((isContinuation_iff d).mpr (by omega))
    have bits : appendBits (appendBits (leadingBits 2 a) b) d = c.toNat := by
      change (a.toNat % 16 * 64 + b.toNat % 64) * 64 + d.toNat % 64 = _
      omega
    rwa [bits, Char.ofNat_toNat, ← ha, ← hb, ← hd] at listed
  · obtain ⟨a, ha, first⟩ := exists_byte (n := c.toNat / 262144 % 8 + 240) (by omega)
    obtain ⟨b, hb, second⟩ := exists_byte (n := c.toNat / 4096 % 64 + 128) (by omega)
    obtain ⟨d, hd, third⟩ := exists_byte (n := c.toNat / 64 % 64 + 128) (by omega)
    obtain ⟨e, he, fourth⟩ := exists_byte (n := c.toNat % 64 + 128) (by omega)
    have listed := Written.four (a := a) (b := b) (c := d) (d := e)
      (leads_iff.mpr ⟨by omega, by omega⟩) ((isContinuation_iff d).mpr (by omega))
      ((isContinuation_iff e).mpr (by omega))
    have bits : appendBits (appendBits (appendBits (leadingBits 3 a) b) d) e = c.toNat := by
      change ((a.toNat % 8 * 64 + b.toNat % 64) * 64 + d.toNat % 64) * 64 + e.toNat % 64 = _
      omega
    rwa [bits, Char.ofNat_toNat, ← ha, ← hb, ← hd, ← he] at listed

/-- A character is written in one way. -/
theorem written_iff {c : Char} {bytes : List UInt8} :
    Written c bytes ↔ String.utf8EncodeChar c = bytes :=
  ⟨Written.bytes, fun h => h ▸ written c⟩

/-- A character starts with a byte that continues none, and goes on with bytes that do. -/
theorem exists_utf8EncodeChar (c : Char) : ∃ a rest, String.utf8EncodeChar c = a :: rest ∧
    isContinuation a = false ∧ ∀ b ∈ rest, isContinuation b = true := by
  have listed := written c
  have starts {a : UInt8} (apart : a.toNat < 128 ∨ 191 < a.toNat) : isContinuation a = false := by
    rw [← Bool.not_eq_true, isContinuation_iff]
    omega
  have follows {count : Nat} {a b : UInt8} (leads : Leads count a b) : isContinuation b = true :=
    (isContinuation_iff b).mpr (leads_iff.mp leads).1
  generalize String.utf8EncodeChar c = bytes at listed
  cases listed with
  | one small => exact ⟨_, _, rfl, starts (.inl (UInt8.lt_iff_toNat_lt.mp small)), by simp⟩
  | two leads =>
    have ranges := leads_iff.mp leads
    exact ⟨_, _, rfl, starts (by omega), by simp [follows leads]⟩
  | three leads third =>
    have ranges := leads_iff.mp leads
    exact ⟨_, _, rfl, starts (by omega), by simp [follows leads, third]⟩
  | four leads third fourth =>
    have ranges := leads_iff.mp leads
    exact ⟨_, _, rfl, starts (by omega), by simp [follows leads, third, fourth]⟩

/-! ## Boundaries -/

/-- An initial segment that fits is kept. -/
theorem prefix_takeBytes {limit : Nat} {kept cs : List Char} (start : kept <+: cs)
    (fits : byteLength kept ≤ limit) : kept <+: takeBytes limit cs := by
  induction cs generalizing limit kept with
  | nil => rwa [takeBytes]
  | cons c cs ih =>
    cases kept with
    | nil => exact List.nil_prefix
    | cons d kept =>
      obtain ⟨rfl, after⟩ := List.cons_prefix_cons.mp start
      rw [byteLength] at fits
      rw [takeBytes, if_pos (by omega), List.cons_prefix_cons]
      exact ⟨rfl, ih after (by omega)⟩

/-- A limit that is not reached can be lowered. -/
theorem takeBytes_of_fits {low high : Nat} {cs : List Char} (order : low ≤ high)
    (fits : byteLength (takeBytes high cs) ≤ low) : takeBytes low cs = takeBytes high cs := by
  refine List.IsPrefix.eq_of_length_le ?_ ?_
  · exact prefix_takeBytes (takeBytes_isPrefix low cs)
      (Nat.le_trans (byteLength_takeBytes_le low cs) order)
  · exact (prefix_takeBytes (takeBytes_isPrefix high cs) fits).length_le

private theorem starts_encode (cs : List Char) :
    (match (encode cs)[0]? with
      | some b => !isContinuation b
      | none => decide (0 = (encode cs).length)) = true := by
  cases cs with
  | nil => rfl
  | cons c cs =>
    obtain ⟨a, rest, bytes, starts, -⟩ := exists_utf8EncodeChar c
    simp [encode_cons, bytes, starts]

/-- After a character the boundaries are those of the text that follows. -/
private theorem isBoundary_after (c : Char) (cs : List Char) (index : Nat) :
    isBoundary (encode (c :: cs)) (c.utf8Size + index) = isBoundary (encode cs) index := by
  have width := String.length_utf8EncodeChar c
  have some_bytes := c.utf8Size_pos
  have found : (encode (c :: cs))[c.utf8Size + index]? = (encode cs)[index]? := by
    rw [encode_cons, List.getElem?_append_right (by omega), width, Nat.add_sub_cancel_left]
  have length : (encode (c :: cs)).length = c.utf8Size + (encode cs).length := by
    rw [encode_cons, List.length_append, width]
  have inner : decide (c.utf8Size + index = 0) = false := decide_eq_false (by omega)
  have ends : decide (c.utf8Size + index = c.utf8Size + (encode cs).length) =
      decide (index = (encode cs).length) := decide_eq_decide.mpr Nat.add_left_cancel_iff
  rw [isBoundary, isBoundary, found, length, inner, Bool.false_or, ends]
  by_cases start : index = 0
  · subst start
    exact starts_encode cs
  · rw [decide_eq_false start, Bool.false_or]

/-- No boundary lies inside a character. -/
private theorem isBoundary_inside {c : Char} {index : Nat} (cs : List Char) (positive : 0 < index)
    (inside : index < c.utf8Size) : isBoundary (encode (c :: cs)) index = false := by
  obtain ⟨a, rest, bytes, -, continues⟩ := exists_utf8EncodeChar c
  have width := String.length_utf8EncodeChar c
  rw [bytes, List.length_cons] at width
  obtain ⟨index, rfl⟩ := Nat.exists_eq_add_one_of_ne_zero (Nat.ne_of_gt positive)
  have short : index < rest.length := by omega
  have found : (encode (c :: cs))[index + 1]? = some rest[index] := by
    rw [encode_cons, bytes, List.cons_append, List.getElem?_cons_succ,
      List.getElem?_append_left short, List.getElem?_eq_getElem short]
  have later : decide (index + 1 = 0) = false := rfl
  rw [isBoundary, found, later, Bool.false_or, Bool.not_eq_false']
  exact continues _ (List.getElem_mem short)

/-- The boundaries are the indices up to which whole characters can be taken. -/
theorem isBoundary_encode_iff (cs : List Char) (index : Nat) :
    isBoundary (encode cs) index = true ↔ byteLength (takeBytes index cs) = index := by
  induction cs generalizing index with
  | nil => simp [isBoundary, encode, takeBytes, byteLength, eq_comm]
  | cons c cs ih =>
    rw [takeBytes]
    split
    · next whole =>
      obtain ⟨after, rfl⟩ := Nat.exists_eq_add_of_le whole
      rw [isBoundary_after, ih, Nat.add_sub_cancel_left, byteLength, Nat.add_left_cancel_iff]
    · next part =>
      cases index with
      | zero => exact iff_of_true rfl rfl
      | succ index =>
        rw [isBoundary_inside cs (Nat.succ_pos index) (Nat.lt_of_not_le part)]
        exact iff_of_false Bool.false_ne_true (Nat.succ_ne_zero index).symm

/-- The search for a boundary finds the longest initial segment that fits. -/
theorem boundaryBefore?_encode (cs : List Char) (limit : Nat) :
    boundaryBefore? (encode cs) limit = some (byteLength (takeBytes limit cs)) := by
  induction limit with
  | zero =>
    have start : isBoundary (encode cs) 0 = true := rfl
    rw [boundaryBefore?, if_pos start, Nat.le_zero.mp (byteLength_takeBytes_le 0 cs)]
  | succ limit ih =>
    rw [boundaryBefore?]
    split
    · next boundary => rw [(isBoundary_encode_iff cs (limit + 1)).mp boundary]
    · next inner =>
      have fits := byteLength_takeBytes_le (limit + 1) cs
      rw [isBoundary_encode_iff] at inner
      rw [ih, takeBytes_of_fits (Nat.le_add_right limit 1) (by omega)]

/-- A text is cut at a boundary. -/
theorem truncate?_takeBytes (cs : List Char) (limit : Nat) :
    truncate? cs (byteLength (takeBytes limit cs)) = some (takeBytes limit cs) := by
  have fits := byteLength_takeBytes_le limit cs
  have whole : ¬byteLength cs < byteLength (takeBytes limit cs) := by
    obtain ⟨rest, parts⟩ := takeBytes_isPrefix limit cs
    have sum := congrArg byteLength parts
    rw [byteLength_append] at sum
    omega
  have same : takeBytes (byteLength (takeBytes limit cs)) cs = takeBytes limit cs :=
    takeBytes_of_fits fits (Nat.le_refl _)
  have boundary := (isBoundary_encode_iff cs (byteLength (takeBytes limit cs))).mpr (by rw [same])
  rw [truncate?, if_neg whole, if_pos boundary, same]

end EventRelay.Text
