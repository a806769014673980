import EventRelay.Binary64.Basic

/-!
# Decimal texts of floating-point numbers

Reading takes an optional sign, digits with an optional point among them and an optional exponent,
and gives the nearest number. The names of the infinities and of "not a number" are read in any
case. The shortest digits of a number are the fewest decimal digits that read back as that number;
of several candidates the nearest is chosen, and a tie is left to the caller.
-/

namespace EventRelay.Binary64

/-- The number nearest to `digits * 10 ^ exponent`. Magnitudes far outside the range of finite
numbers are settled without forming the power. -/
def ofDecimal (negative : Bool) (digits : Nat) (exponent : Int) : Binary64 :=
  if digits = 0 then zero negative
  else
    let size : Int := (digits.log2 : Int) * 30103 / 100000 + exponent
    if 400 < size then .infinite negative
    else if size < -400 then zero negative
    else if 0 ≤ exponent then ofRatio negative (digits * Nat.pow 10 exponent.toNat) 1
    else ofRatio negative digits (Nat.pow 10 (-exponent).toNat)

/-- The value of a list of digits. -/
def digitsValue (ds : List Char) : Nat := ds.foldl (fun n c => n * 10 + (c.toNat - 48)) 0

/-- The digits at the front of a text, and the rest. -/
def spanDigits (cs : List Char) : List Char × List Char :=
  (cs.takeWhile Char.isDigit, cs.dropWhile Char.isDigit)

/-- An exponent: a sign that may be missing, and digits up to the end of the text. -/
def readExponent : List Char → Option Int
  | '+' :: cs => if cs ≠ [] ∧ cs.all Char.isDigit then some (digitsValue cs) else none
  | '-' :: cs => if cs ≠ [] ∧ cs.all Char.isDigit then some (-(digitsValue cs : Int)) else none
  | cs => if cs ≠ [] ∧ cs.all Char.isDigit then some (digitsValue cs) else none

/-- A magnitude without sign. -/
def readMagnitude (negative : Bool) (cs : List Char) : Option Binary64 :=
  let name := String.ofList (cs.map Char.toLower)
  if name = "inf" ∨ name = "infinity" then some (.infinite negative)
  else if name = "nan" then some .nan
  else
    let (whole, rest) := spanDigits cs
    let (fraction, rest) := match rest with
      | '.' :: more => spanDigits more
      | other => ([], other)
    if whole = [] ∧ fraction = [] then none
    else
      let exponent := match rest with
        | [] => some 0
        | 'e' :: more => readExponent more
        | 'E' :: more => readExponent more
        | _ => none
      exponent.map fun e =>
        ofDecimal negative (digitsValue (whole ++ fraction)) (e - fraction.length)

/-- Reads a number with an optional sign. -/
def read (s : String) : Option Binary64 :=
  match s.toList with
  | '-' :: cs => readMagnitude true cs
  | '+' :: cs => readMagnitude false cs
  | cs => readMagnitude false cs

/-- Which of two equally near decimals is taken. -/
inductive Tie
  /-- The one with the even last digit. -/
  | even
  /-- The larger one. -/
  | up
  deriving DecidableEq, Repr

/-- The decimals that read back as `significand * 2 ^ exponent` form an interval; its ends are given
in quarters of a unit in the last place and belong to it exactly for even significands. -/
def readBackRange (significand : Nat) (exponent : Int) : Nat × Nat :=
  let low := if significand = leastFull ∧ minExponent < exponent then 4 * significand - 1
    else 4 * significand - 2
  (low, 4 * significand + 2)

/-- The best candidate on the grid of multiples of `10 ^ k`, if one reads back. -/
def candidate (tie : Tie) (significand : Nat) (exponent k : Int) : Option Nat :=
  let q := exponent - 2
  let a := Nat.pow 10 (-k).toNat <<< q.toNat
  let b := Nat.pow 10 k.toNat <<< (-q).toNat
  let (low, high) := readBackRange significand exponent
  let within (n : Nat) : Bool :=
    if significand % 2 = 0 then low * a ≤ n * b && n * b ≤ high * a
    else low * a < n * b && n * b < high * a
  let value := 4 * significand * a
  let n := value / b
  let below := n != 0 && within n
  let above := within (n + 1)
  if below && above then
    let down := value - n * b
    let up := (n + 1) * b - value
    if down < up then some n
    else if up < down then some (n + 1)
    else if tie = .even && n % 2 = 0 then some n
    else some (n + 1)
  else if below then some n
  else if above then some (n + 1)
  else none

/-- Tries finer and finer grids. -/
def searchGrids (tie : Tie) (significand : Nat) (exponent : Int) : Nat → Int → Nat × Int
  | 0, k => (significand, k)
  | fuel + 1, k =>
    match candidate tie significand exponent k with
    | some n => (n, k)
    | none => searchGrids tie significand exponent fuel (k - 1)

/-- The shortest decimal of a positive number, as digits and a power of ten. The search starts above
the leading digit and seventeen digits always suffice. -/
def shortest (tie : Tie) (significand : Nat) (exponent : Int) : Nat × Int :=
  let estimate := ((significand.log2 : Int) + exponent) * 30103 / 100000
  searchGrids tie significand exponent 24 (estimate + 2)

/-- Digits with the point placed by position; `point` counts the digits before it. The mark
`whole` closes a number without fraction. -/
def positional (whole : List Char) (digits : List Char) (point : Int) : List Char :=
  if point ≤ 0 then '0' :: '.' :: (List.replicate (-point).toNat '0' ++ digits)
  else if digits.length ≤ point.toNat then
    digits ++ List.replicate (point.toNat - digits.length) '0' ++ whole
  else digits.take point.toNat ++ '.' :: digits.drop point.toNat

/-- Text without an exponent at every size, as readers of a report expect it. -/
def plainText : Binary64 → String
  | .nan => "NaN"
  | .infinite negative => if negative then "-inf" else "inf"
  | .finite negative m e =>
    let sign := if negative then ['-'] else []
    if m = 0 then String.ofList (sign ++ ['0'])
    else
      let (n, k) := shortest .up m e
      let digits := Nat.toDigits 10 n
      String.ofList (sign ++ positional [] digits (digits.length + k))

end EventRelay.Binary64
