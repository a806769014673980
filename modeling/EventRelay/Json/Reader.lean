import EventRelay.Json.Basic

/-!
# Reading JSON text

A text is one value with white space around its parts and nothing after it. Numbers have no
superfluous leading zero and a digit on each side of the point; strings hold no raw control
character. A reader returns what it has read and the rest of the text.
-/

namespace EventRelay.Json

/-- The four characters that may stand between tokens. -/
def isSpace (c : Char) : Bool := c = ' ' || c = '\n' || c = '\t' || c = '\r'

/-- Drops the white space in front. -/
def skipSpace (cs : List Char) : List Char := cs.dropWhile isSpace

/-- A string literal consists of characters and of escaped 16-bit units. -/
inductive Unit16
  /-- A character that stands for itself, or a short escape. -/
  | char (c : Char)
  /-- An escape with four hexadecimal digits. -/
  | escaped (n : Nat)
  deriving DecidableEq, Repr

/-- The value of a hexadecimal digit of either case. -/
def hexValue (c : Char) : Option Nat :=
  if '0' ≤ c ∧ c ≤ '9' then some (c.toNat - 48)
  else if 'a' ≤ c ∧ c ≤ 'f' then some (c.toNat - 87)
  else if 'A' ≤ c ∧ c ≤ 'F' then some (c.toNat - 55)
  else none

/-- Four hexadecimal digits. -/
def hexQuad (a b c d : Char) : Option Nat := do
  let a ← hexValue a
  let b ← hexValue b
  let c ← hexValue c
  let d ← hexValue d
  return ((a * 16 + b) * 16 + c) * 16 + d

/-- The character that a short escape stands for. -/
def shortEscape (c : Char) : Option Char :=
  if c = '"' ∨ c = '\\' ∨ c = '/' then some c
  else if c = 'b' then some (Char.ofNat 8)
  else if c = 'f' then some (Char.ofNat 12)
  else if c = 'n' then some '\n'
  else if c = 'r' then some '\r'
  else if c = 't' then some '\t'
  else none

/-- The units of a literal up to its closing quote, and the rest. -/
def readUnits : List Char → Option (List Unit16 × List Char)
  | [] => none
  | '"' :: rest => some ([], rest)
  | '\\' :: 'u' :: a :: b :: c :: d :: rest => do
    let n ← hexQuad a b c d
    let (units, rest) ← readUnits rest
    return (.escaped n :: units, rest)
  | '\\' :: e :: rest => do
    let c ← shortEscape e
    let (units, rest) ← readUnits rest
    return (.char c :: units, rest)
  | c :: rest => do
    if c.toNat < 0x20 || c = '\\' then none
    else
      let (units, rest) ← readUnits rest
      return (.char c :: units, rest)

/-- The character of a leading and a trailing half. -/
def joinHalves (high low : Nat) : Char :=
  Char.ofNat (0x10000 + (high - 0xd800) * 0x400 + (low - 0xdc00))

/-- The text of a list of units; `none` if a half has no partner. -/
def unitsText : List Unit16 → Option (List Char)
  | [] => some []
  | .char c :: rest => (unitsText rest).map (c :: ·)
  | .escaped n :: rest =>
    if 0xdc00 ≤ n ∧ n ≤ 0xdfff then none
    else if 0xd800 ≤ n ∧ n ≤ 0xdbff then
      match rest with
      | .escaped m :: more =>
        if 0xdc00 ≤ m ∧ m ≤ 0xdfff then (unitsText more).map (joinHalves n m :: ·) else none
      | _ => none
    else (unitsText rest).map (Char.ofNat n :: ·)

/-- A literal after its opening quote. -/
def readLiteral (cs : List Char) : Option (Literal × List Char) :=
  (readUnits cs).map fun r => ((unitsText r.1).map String.ofList, r.2)

/-- The whole part: a zero, or digits that start with another one. -/
def readWhole (cs : List Char) : Option (List Char × List Char) :=
  match cs with
  | '0' :: rest => some (['0'], rest)
  | c :: rest =>
    if c.isDigit then
      let (more, rest) := Binary64.spanDigits rest
      some (c :: more, rest)
    else none
  | [] => none

/-- The digits after a point, if there is one. -/
def readFraction (cs : List Char) : Option (List Char × List Char) :=
  match cs with
  | '.' :: rest =>
    let (digits, rest) := Binary64.spanDigits rest
    if digits = [] then none else some (digits, rest)
  | _ => some ([], cs)

/-- One or more digits of a power of ten. -/
def readPower (minus : Bool) (cs : List Char) : Option (Option (Bool × List Char) × List Char) :=
  let (digits, rest) := Binary64.spanDigits cs
  if digits = [] then none else some (some (minus, digits), rest)

/-- The power of ten, if there is one. -/
def readPowerMark (cs : List Char) : Option (Option (Bool × List Char) × List Char) :=
  match cs with
  | c :: rest =>
    if c = 'e' ∨ c = 'E' then
      match rest with
      | '+' :: more => readPower false more
      | '-' :: more => readPower true more
      | _ => readPower false rest
    else some (none, cs)
  | [] => some (none, [])

/-- A number literal. -/
def readNumeral (cs : List Char) : Option (Numeral × List Char) := do
  let (negative, cs) := match cs with
    | '-' :: rest => (true, rest)
    | _ => (false, cs)
  let (whole, cs) ← readWhole cs
  let (fraction, cs) ← readFraction cs
  let (exponent, cs) ← readPowerMark cs
  return (⟨negative, whole, fraction, exponent⟩, cs)

mutual

/-- A value and the rest of the text. Every call takes at least one character, so the length of
the text is enough fuel. -/
def readValue : Nat → List Char → Option (Json × List Char)
  | 0, _ => none
  | fuel + 1, cs =>
    match skipSpace cs with
    | 'n' :: 'u' :: 'l' :: 'l' :: rest => some (.null, rest)
    | 't' :: 'r' :: 'u' :: 'e' :: rest => some (.bool true, rest)
    | 'f' :: 'a' :: 'l' :: 's' :: 'e' :: rest => some (.bool false, rest)
    | '"' :: rest => (readLiteral rest).map fun r => (.string r.1, r.2)
    | '[' :: rest =>
      match skipSpace rest with
      | ']' :: rest => some (.array [], rest)
      | rest => (readItems fuel rest).map fun r => (.array r.1, r.2)
    | '\x7b' :: rest =>
      match skipSpace rest with
      | '\x7d' :: rest => some (.object [], rest)
      | rest => (readMembers fuel rest).map fun r => (.object r.1, r.2)
    | rest => (readNumeral rest).map fun r => (.number r.1, r.2)

/-- One or more values up to the closing bracket. -/
def readItems : Nat → List Char → Option (List Json × List Char)
  | 0, _ => none
  | fuel + 1, cs => do
    let (item, cs) ← readValue fuel cs
    match skipSpace cs with
    | ',' :: rest =>
      let (items, rest) ← readItems fuel rest
      return (item :: items, rest)
    | ']' :: rest => return ([item], rest)
    | _ => none

/-- One or more members up to the closing brace. -/
def readMembers : Nat → List Char → Option (List (Literal × Json) × List Char)
  | 0, _ => none
  | fuel + 1, cs => do
    match skipSpace cs with
    | '"' :: rest =>
      let (name, cs) ← readLiteral rest
      match skipSpace cs with
      | ':' :: rest =>
        let (value, cs) ← readValue fuel rest
        match skipSpace cs with
        | ',' :: rest =>
          let (members, rest) ← readMembers fuel rest
          return ((name, value) :: members, rest)
        | '\x7d' :: rest => return ([(name, value)], rest)
        | _ => none
      | _ => none
    | _ => none

end

/-- Reads a whole text. -/
def parse (s : String) : Option Json := do
  let cs := s.toList
  let (value, rest) ← readValue (2 * cs.length + 2) cs
  if skipSpace rest = [] then some value else none

end EventRelay.Json
