import EventRelay.Binary64.Decimal

/-!
# JSON values and their compact text

Numbers keep their digits, objects keep the order of their members and repeated names. A string
literal may hold an escape for half a character; such a literal is a value of its own that denotes
no text. Writing adds no spaces and escapes only what must be escaped.
-/

namespace EventRelay

/-- A number literal: an optional minus sign, digits, an optional fraction and an optional signed
power of ten. -/
structure Numeral where
  /-- A minus sign stands in front. -/
  negative : Bool := false
  /-- The digits before the point. -/
  whole : List Char
  /-- The digits after the point; none without a point. -/
  fraction : List Char := []
  /-- The sign (`true` for minus) and digits of the power of ten. -/
  exponent : Option (Bool × List Char) := none
  deriving DecidableEq, Repr

/-- The text of a string literal, or `none` if an escape in it has no partner. -/
abbrev Literal := Option String

/-- A JSON value. -/
inductive Json
  /-- The null value. -/
  | null
  /-- A truth value. -/
  | bool (value : Bool)
  /-- A number. -/
  | number (value : Numeral)
  /-- A string. -/
  | string (value : Literal)
  /-- Values in order. -/
  | array (items : List Json)
  /-- Named values in order. -/
  | object (members : List (Literal × Json))
  deriving Repr

namespace Numeral

/-- The literal of a natural number. -/
def ofNat (n : Nat) : Numeral where
  whole := Nat.toDigits 10 n

/-- The literal of an integer. -/
def ofInt (n : Int) : Numeral where
  negative := n < 0
  whole := Nat.toDigits 10 n.natAbs

/-- The literal of a positive number: positional with at least one fraction digit when the leading
digit stands between the fifth place after the point and the sixteenth before it, and with a power
of ten otherwise. -/
def ofDigits (negative : Bool) (digits : List Char) (k : Int) : Numeral :=
  let point : Int := digits.length + k
  if -5 < point ∧ point ≤ 16 then
    if point ≤ 0 then ⟨negative, ['0'], List.replicate (-point).toNat '0' ++ digits, none⟩
    else if digits.length ≤ point.toNat then
      ⟨negative, digits ++ List.replicate (point.toNat - digits.length) '0', ['0'], none⟩
    else ⟨negative, digits.take point.toNat, digits.drop point.toNat, none⟩
  else
    let power := point - 1
    ⟨negative, digits.take 1, digits.drop 1, some (power < 0, Nat.toDigits 10 power.natAbs)⟩

/-- The literal of a finite floating-point number, with the fewest digits that read back; numbers
that are not finite have none. -/
def ofBinary64? : Binary64 → Option Numeral
  | .finite negative m e =>
    if m = 0 then some ⟨negative, ['0'], ['0'], none⟩
    else
      let (n, k) := Binary64.shortest .even m e
      some (ofDigits negative (Nat.toDigits 10 n) k)
  | _ => none

/-- The text of a literal. -/
def text (n : Numeral) : List Char :=
  (if n.negative then ['-'] else []) ++ n.whole ++
    (if n.fraction = [] then [] else '.' :: n.fraction) ++
    (match n.exponent with
      | none => []
      | some (minus, digits) => 'e' :: (if minus then '-' else '+') :: digits)

end Numeral

namespace Json

/-- A string value. -/
def ofString (s : String) : Json := .string (some s)

/-- A natural number. -/
def ofNat (n : Nat) : Json := .number (.ofNat n)

/-- An integer. -/
def ofInt (n : Int) : Json := .number (.ofInt n)

/-- A floating-point number; null if it is not finite. -/
def ofBinary64 (x : Binary64) : Json :=
  match Numeral.ofBinary64? x with
  | some n => .number n
  | none => .null

/-- A value that may be absent; null stands for absence. -/
def ofOption {α : Type} (f : α → Json) : Option α → Json
  | none => .null
  | some a => f a

/-- An object with well-formed names. -/
def record (members : List (String × Json)) : Json :=
  .object (members.map fun m => (some m.1, m.2))

/-- A digit of a four-digit escape. -/
def hexDigit (n : Nat) : Char :=
  if n < 10 then Char.ofNat (48 + n) else Char.ofNat (87 + n)

/-- A character inside a string literal. -/
def writeChar (c : Char) : List Char :=
  if c = '"' then ['\\', '"']
  else if c = '\\' then ['\\', '\\']
  else if c = '\n' then ['\\', 'n']
  else if c = '\r' then ['\\', 'r']
  else if c = '\t' then ['\\', 't']
  else if c.toNat = 8 then ['\\', 'b']
  else if c.toNat = 12 then ['\\', 'f']
  else if c.toNat < 0x20 then
    ['\\', 'u', '0', '0', hexDigit (c.toNat / 16), hexDigit (c.toNat % 16)]
  else [c]

/-- A string literal. -/
def writeLiteral : Literal → List Char
  | some s => '"' :: (s.toList.flatMap writeChar ++ ['"'])
  | none => ['"', '\\', 'u', 'd', '8', '0', '0', '"']

mutual

/-- The compact text of a value. -/
def write : Json → List Char
  | .null => ['n', 'u', 'l', 'l']
  | .bool true => ['t', 'r', 'u', 'e']
  | .bool false => ['f', 'a', 'l', 's', 'e']
  | .number n => n.text
  | .string s => writeLiteral s
  | .array items => '[' :: writeItems items
  | .object members => '\x7b' :: writeMembers members

/-- The items of an array and its closing bracket. -/
def writeItems : List Json → List Char
  | [] => [']']
  | [j] => write j ++ [']']
  | j :: k :: rest => write j ++ ',' :: writeItems (k :: rest)

/-- The members of an object and its closing brace. -/
def writeMembers : List (Literal × Json) → List Char
  | [] => ['\x7d']
  | [(name, j)] => writeLiteral name ++ ':' :: (write j ++ ['\x7d'])
  | (name, j) :: m :: rest =>
    writeLiteral name ++ ':' :: (write j ++ ',' :: writeMembers (m :: rest))

end

/-- The compact text of a value as a string. -/
def text (j : Json) : String := String.ofList j.write

end Json

end EventRelay
