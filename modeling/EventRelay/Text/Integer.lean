/-!
# Integers written in decimal

An unsigned number is an optional plus sign and one or more digits; a signed one may also start
with a minus sign. The reader goes from left to right and reports the first character that is no
digit or that takes the number out of its range.
-/

namespace EventRelay.Text

/-- Why a text is not an integer of the wanted range. -/
inductive IntegerFault
  /-- The text is empty. -/
  | empty
  /-- A character is neither a digit nor an allowed sign. -/
  | invalidDigit
  /-- The number lies above the range. -/
  | tooLarge
  /-- The number lies below the range. -/
  | tooSmall
  /-- Zero, where a positive number is wanted. -/
  | zero
  deriving DecidableEq, Repr

/-- The explanation given to a reader. -/
def IntegerFault.message : IntegerFault → String
  | .empty => "cannot parse integer from empty string"
  | .invalidDigit => "invalid digit found in string"
  | .tooLarge => "number too large to fit in target type"
  | .tooSmall => "number too small to fit in target type"
  | .zero => "number would be zero for non-zero type"

/-- The form used in diagnostic log fields. -/
def IntegerFault.debug (fault : IntegerFault) : String :=
  let kind := match fault with
    | .empty => "Empty"
    | .invalidDigit => "InvalidDigit"
    | .tooLarge => "PosOverflow"
    | .tooSmall => "NegOverflow"
    | .zero => "Zero"
  "ParseIntError \x7b kind: " ++ kind ++ " \x7d"

/-- The value of an ASCII digit. -/
def digitValue (c : Char) : Option Nat :=
  if '0' ≤ c ∧ c ≤ '9' then some (c.toNat - 48) else none

/-- Reads digits onto an accumulated number; `fault` is reported above `limit`. -/
def readDigits (limit : Nat) (fault : IntegerFault) (acc : Nat) :
    List Char → Except IntegerFault Nat
  | [] => .ok acc
  | c :: cs =>
    match digitValue c with
    | none => .error .invalidDigit
    | some d =>
      if acc * 10 + d ≤ limit then readDigits limit fault (acc * 10 + d) cs else .error fault

/-- Reads an unsigned number of at most `limit`. -/
def readNatural (limit : Nat) : List Char → Except IntegerFault Nat
  | [] => .error .empty
  | ['+'] => .error .invalidDigit
  | '+' :: cs => readDigits limit .tooLarge 0 cs
  | cs => readDigits limit .tooLarge 0 cs

/-- Reads a signed number between `-below` and `above`. -/
def readSigned (below above : Nat) : List Char → Except IntegerFault Int
  | [] => .error .empty
  | ['-'] => .error .invalidDigit
  | ['+'] => .error .invalidDigit
  | '-' :: cs => (readDigits below .tooSmall 0 cs).map fun n => -(n : Int)
  | '+' :: cs => (readDigits above .tooLarge 0 cs).map Int.ofNat
  | cs => (readDigits above .tooLarge 0 cs).map Int.ofNat

/-- The largest unsigned number of 64 bits. -/
def maxU64 : Nat := 0xffffffffffffffff

/-- The largest unsigned number of 32 bits. -/
def maxU32 : Nat := 0xffffffff

/-- Reads a signed number of 64 bits. -/
def readSigned64 (cs : List Char) : Except IntegerFault Int :=
  readSigned 0x8000000000000000 0x7fffffffffffffff cs

end EventRelay.Text
