/-!
# Bytes and characters

Decoding never fails: each maximal ill-formed stretch of bytes becomes one replacement character.
A text is cut to a number of bytes only between two characters.
-/

namespace EventRelay.Text

/-- The mark that stands for undecodable bytes. -/
def replacement : Char := Char.ofNat 0xfffd

/-- Bytes that may only continue a character. -/
def isContinuation (b : UInt8) : Bool := 0x80 ≤ b && b ≤ 0xbf

/-- How many bytes follow a leading byte beyond ASCII, and between which bounds the first of them
lies; `none` for a byte that starts no character. -/
def followers (b : UInt8) : Option (Nat × UInt8 × UInt8) :=
  if 0xc2 ≤ b && b ≤ 0xdf then some (1, 0x80, 0xbf)
  else if b == 0xe0 then some (2, 0xa0, 0xbf)
  else if b == 0xed then some (2, 0x80, 0x9f)
  else if 0xe1 ≤ b && b ≤ 0xef then some (2, 0x80, 0xbf)
  else if b == 0xf0 then some (3, 0x90, 0xbf)
  else if 0xf1 ≤ b && b ≤ 0xf3 then some (3, 0x80, 0xbf)
  else if b == 0xf4 then some (3, 0x80, 0x8f)
  else none

/-- The six payload bits of a continuation byte appended to an accumulated code point. -/
def appendBits (acc : Nat) (b : UInt8) : Nat := acc * 64 + b.toNat % 64

/-- The payload bits of a leading byte with the given number of followers. -/
def leadingBits (count : Nat) (b : UInt8) : Nat := b.toNat % (1 <<< (6 - count))

/-- Decodes bytes; an ill-formed stretch ends before the first byte that cannot continue it. -/
def decodeLossy : List UInt8 → List Char
  | [] => []
  | a :: rest =>
    if a < 0x80 then Char.ofNat a.toNat :: decodeLossy rest
    else match followers a with
      | none => replacement :: decodeLossy rest
      | some (count, low, high) =>
        match rest with
        | [] => [replacement]
        | b :: rest₁ =>
          if !(low ≤ b && b ≤ high) then replacement :: decodeLossy (b :: rest₁)
          else
            let acc := appendBits (leadingBits count a) b
            if count = 1 then Char.ofNat acc :: decodeLossy rest₁
            else match rest₁ with
              | [] => [replacement]
              | c :: rest₂ =>
                if !isContinuation c then replacement :: decodeLossy (c :: rest₂)
                else
                  let acc := appendBits acc c
                  if count = 2 then Char.ofNat acc :: decodeLossy rest₂
                  else match rest₂ with
                    | [] => [replacement]
                    | d :: rest₃ =>
                      if !isContinuation d then replacement :: decodeLossy (d :: rest₃)
                      else Char.ofNat (appendBits acc d) :: decodeLossy rest₃

/-- The bytes of a text. -/
def utf8Bytes (s : String) : List UInt8 := s.toUTF8.data.toList

/-- The bytes of a list of characters. -/
def encode (cs : List Char) : List UInt8 := cs.flatMap String.utf8EncodeChar

/-- Whether an index lies at the start, at the end or before the first byte of a character. -/
def isBoundary (bytes : List UInt8) (index : Nat) : Bool :=
  index = 0 ||
    match bytes[index]? with
    | some b => !isContinuation b
    | none => index = bytes.length

/-- The nearest boundary that is not after an index, looked for backwards; `none` if the search
would have to go below zero. -/
def boundaryBefore? (bytes : List UInt8) : Nat → Option Nat
  | 0 => if isBoundary bytes 0 then some 0 else none
  | index + 1 =>
    if isBoundary bytes (index + 1) then some (index + 1) else boundaryBefore? bytes index

/-- The number of bytes that a list of characters takes. -/
def byteLength : List Char → Nat
  | [] => 0
  | c :: cs => c.utf8Size + byteLength cs

/-- Every character takes at least one byte. -/
theorem length_le_byteLength (cs : List Char) : cs.length ≤ byteLength cs := by
  induction cs with
  | nil => exact Nat.le_refl 0
  | cons c cs ih =>
    have := c.utf8Size_pos
    rw [List.length_cons, byteLength]
    omega

/-- The longest initial segment of at most `limit` bytes that ends between two characters. -/
def takeBytes (limit : Nat) : List Char → List Char
  | [] => []
  | c :: cs => if c.utf8Size ≤ limit then c :: takeBytes (limit - c.utf8Size) cs else []

/-- The characters before an index; `none` if it lies inside a character. An index after the end
keeps all of them. -/
def truncate? (cs : List Char) (index : Nat) : Option (List Char) :=
  if byteLength cs < index then some cs
  else if isBoundary (encode cs) index then some (takeBytes index cs)
  else none

/-- What is kept fits the limit. -/
theorem byteLength_takeBytes_le (limit : Nat) (cs : List Char) :
    byteLength (takeBytes limit cs) ≤ limit := by
  induction cs generalizing limit with
  | nil => simp [takeBytes, byteLength]
  | cons c cs ih =>
    rw [takeBytes]
    split
    · next h =>
      have := ih (limit - c.utf8Size)
      simp only [byteLength]
      omega
    · simp [byteLength]

/-- What is kept is an initial segment. -/
theorem takeBytes_isPrefix (limit : Nat) (cs : List Char) : takeBytes limit cs <+: cs := by
  induction cs generalizing limit with
  | nil => simp [takeBytes]
  | cons c cs ih =>
    rw [takeBytes]
    split
    · exact List.cons_prefix_cons.mpr ⟨rfl, ih _⟩
    · exact List.nil_prefix

/-- A text that fits is kept whole. -/
theorem takeBytes_of_le {limit : Nat} {cs : List Char} (fits : byteLength cs ≤ limit) :
    takeBytes limit cs = cs := by
  induction cs generalizing limit with
  | nil => rfl
  | cons c cs ih =>
    simp only [byteLength] at fits
    rw [takeBytes, if_pos (by omega), ih (by omega)]

end EventRelay.Text
