import EventRelay.Json.Reader
import EventRelay.Text.Integer

/-!
# Typed values out of JSON

An integer is a literal without fraction and exponent; minus zero is no integer. A floating-point
number is computed from the leading digits that fit 64 bits by one multiplication or division with a
power of ten, and a number beyond the finite range is refused. A record is an object with its fields
in any order and each at most once, unknown ones being ignored, or an array of its fields in order.
-/

namespace EventRelay

namespace Numeral

/-- The natural number of a list of digits. -/
def digitsNat (ds : List Char) : Nat := Binary64.digitsValue ds

/-- The integer that the literal denotes, if it is written as one. -/
def toInt? (n : Numeral) : Option Int :=
  if n.fraction = [] ∧ n.exponent = none then
    if n.negative then
      if digitsNat n.whole = 0 then none else some (-(digitsNat n.whole : Int))
    else some (digitsNat n.whole)
  else none

/-- Appends digits to a significand as long as it fits 64 bits; the result counts those appended. -/
def gather (significand taken : Nat) : List Char → Nat × Nat
  | [] => (significand, taken)
  | c :: cs =>
    let next := significand * 10 + (c.toNat - 48)
    if next ≤ Text.maxU64 then gather next (taken + 1) cs else (significand, taken)

/-- A significand times a power of ten. A power beyond the range is applied in steps. -/
def scale (x : Binary64) (power : Int) : Option Binary64 :=
  if power.natAbs ≤ 308 then
    if 0 ≤ power then
      let y := x.mul (.powerOfTen power.toNat)
      if y.isFinite then some y else none
    else some (x.div (.powerOfTen power.natAbs))
  else if x = .zero false then some x
  else if 0 ≤ power then none
  else scale (x.div (.powerOfTen 308)) (power + 308)
termination_by power.natAbs
decreasing_by omega

/-- The floating-point number of a literal, or `none` beyond the finite range. An integer of 64 bits
is converted in one rounding. -/
def toBinary64? (n : Numeral) : Option Binary64 :=
  let (head, taken) := gather 0 0 n.whole
  let left : Int := n.whole.length - taken
  let (significand, places) := gather head 0 n.fraction
  let power : Int := match n.exponent with
    | none => 0
    | some (minus, digits) => if minus then -(digitsNat digits : Int) else digitsNat digits
  (scale (.ofNat significand) (left - places + power)).map fun x =>
    if n.negative then x.neg else x

end Numeral

namespace Json

/-- A truth value. -/
def toBool? : Json → Option Bool
  | .bool b => some b
  | _ => none

/-- A text. -/
def toText? : Json → Option String
  | .string s => s
  | _ => none

/-- An integer between two bounds. -/
def toIntBetween? (low high : Int) : Json → Option Int
  | .number n => n.toInt?.filter fun i => low ≤ i && i ≤ high
  | _ => none

/-- A natural number of at most `limit`. -/
def toNatUpTo? (limit : Nat) (j : Json) : Option Nat :=
  (j.toIntBetween? 0 limit).map Int.toNat

/-- A signed integer of 64 bits. -/
def toInt64? : Json → Option Int := toIntBetween? (-0x8000000000000000) 0x7fffffffffffffff

/-- A finite floating-point number. -/
def toBinary64? : Json → Option Binary64
  | .number n => n.toBinary64?
  | _ => none

/-- Every item of an array. -/
def toList? {α : Type} (f : Json → Option α) : Json → Option (List α)
  | .array items => items.mapM f
  | _ => none

/-- A value, or null for none. -/
def toOption? {α : Type} (f : Json → Option α) : Json → Option (Option α)
  | .null => some none
  | j => (f j).map some

/-- A name from a closed list: a string, or an object whose only member has that name and the value
null. -/
def toName? : Json → Option String
  | .string s => s
  | .object [(some name, .null)] => some name
  | _ => none

/-- How a record was written. -/
inductive Shape
  /-- As an object, where a field may be left out. -/
  | named
  /-- As an array, where only fields at the end may be left out. -/
  | ordered
  deriving DecidableEq, Repr

/-- The fields of a record as they were found. -/
structure Fields where
  /-- The form of the record. -/
  shape : Shape
  /-- The value of each declared field that is present. -/
  values : List (Option Json)

/-- The value of a field, if it occurs once; `none` if it is repeated. -/
def findField (name : String) (members : List (String × Json)) : Option (Option Json) :=
  match members.filter (·.1 = name) with
  | [] => some none
  | [(_, j)] => some (some j)
  | _ => none

/-- Reads a record with the given fields. All names must be texts, known ones must not be repeated,
and an array must not be longer than the list of fields. -/
def fields? (names : List String) : Json → Option Fields
  | .object members => do
    let members ← members.mapM fun m => m.1.map (·, m.2)
    let values ← names.mapM (findField · members)
    return ⟨.named, values⟩
  | .array items =>
    if items.length ≤ names.length then
      some ⟨.ordered, items.map some ++ List.replicate (names.length - items.length) none⟩
    else none
  | _ => none

/-- A field that must be present. -/
def required {α : Type} (f : Json → Option α) (value : Option Json) : Option α := value.bind f

/-- A field that stands for none when it is left out. -/
def optional {α : Type} (f : Json → Option α) : Option Json → Option (Option α)
  | none => some none
  | some j => toOption? f j

/-- A field that has a value of its own when it is left out. -/
def withDefault {α : Type} (fallback : α) (f : Json → Option α) : Option Json → Option α
  | none => some fallback
  | some j => f j

mutual

/-- Whether a value can be held before its type is known: nesting stays within the given depth, all
strings are texts and all numbers are finite. -/
def holdable : Nat → Json → Bool
  | _, .number n => n.toBinary64?.isSome
  | _, .string s => s.isSome
  | 0, .array _ => false
  | depth + 1, .array items => holdableItems depth items
  | 0, .object _ => false
  | depth + 1, .object members => holdableMembers depth members
  | _, _ => true

/-- All items can be held. -/
def holdableItems : Nat → List Json → Bool
  | _, [] => true
  | depth, j :: rest => holdable depth j && holdableItems depth rest

/-- All members can be held. -/
def holdableMembers : Nat → List (Literal × Json) → Bool
  | _, [] => true
  | depth, (name, j) :: rest => name.isSome && holdable depth j && holdableMembers depth rest

end

/-- The deepest nesting of a value that is held before its type is known. -/
def holdDepth : Nat := 127

end Json

end EventRelay
