/-!
# Binary floating point with 64 bits

A finite number is a sign, a natural significand below `2 ^ 53` and an exponent of two between
`-1074` and `971`. Every operation is exact on ratios of natural numbers and rounds once, to the
nearest representable number and on a tie to the even significand.
-/

namespace EventRelay

/-- A binary floating-point number of 64 bits. -/
inductive Binary64
  /-- Plus or minus `significand * 2 ^ exponent`. -/
  | finite (negative : Bool) (significand : Nat) (exponent : Int)
  /-- Larger than every finite number, or smaller. -/
  | infinite (negative : Bool)
  /-- Not a number. -/
  | nan
  deriving DecidableEq, Repr

namespace Binary64

/-- The least significand of 53 bits; smaller ones occur at the least exponent only. -/
def leastFull : Nat := 1 <<< 52

/-- The exponent of the smallest positive number. -/
def minExponent : Int := -1074

/-- The exponent of the largest finite numbers. -/
def maxExponent : Int := 971

/-- Zero of either sign. -/
def zero (negative : Bool) : Binary64 := .finite negative 0 minExponent

/-- Neither infinite nor the mark for "not a number". -/
def isFinite : Binary64 → Bool
  | .finite .. => true
  | _ => false

/-- The quotient rounded to the nearest natural number, on a tie to the even one. -/
def roundRatio (num den : Nat) : Nat :=
  let q := num / den
  let r := num % den
  if 2 * r < den ∨ (2 * r = den ∧ q % 2 = 0) then q else q + 1

/-- A ratio divided by `2 ^ exponent`, again as a ratio. -/
def unscale (num den : Nat) (exponent : Int) : Nat × Nat :=
  (num <<< (-exponent).toNat, den <<< exponent.toNat)

/-- The exponent at which a positive ratio has a quotient of 53 bits, or the least exponent. -/
def exponentOf (num den : Nat) : Int :=
  let low : Int := (num.log2 : Int) - den.log2 - 53
  let (n, d) := unscale num den low
  max minExponent (if 2 * leastFull ≤ n / d then low + 1 else low)

/-- The number nearest to `num / den` with the given sign. -/
def ofRatio (negative : Bool) (num den : Nat) : Binary64 :=
  if num = 0 then zero negative
  else
    let e := exponentOf num den
    let (n, d) := unscale num den e
    let m := roundRatio n d
    let (m, e) := if m = 2 * leastFull then (leastFull, e + 1) else (m, e)
    if maxExponent < e then .infinite negative else .finite negative m e

/-- The number nearest to a natural number. -/
def ofNat (n : Nat) : Binary64 := ofRatio false n 1

/-- The magnitude of a finite number as a ratio. -/
def ratio (significand : Nat) (exponent : Int) : Nat × Nat :=
  (significand <<< exponent.toNat, 1 <<< (-exponent).toNat)

/-- The opposite number. -/
def neg : Binary64 → Binary64
  | .finite s m e => .finite (!s) m e
  | .infinite s => .infinite (!s)
  | .nan => .nan

/-- The rounded product of two finite numbers. -/
def mul : Binary64 → Binary64 → Binary64
  | .finite s m e, .finite t n f =>
    let (a, b) := ratio m e
    let (c, d) := ratio n f
    ofRatio (s != t) (a * c) (b * d)
  | _, _ => .nan

/-- The rounded quotient of a finite number by a finite number other than zero. -/
def div : Binary64 → Binary64 → Binary64
  | .finite s m e, .finite t n f =>
    let (a, b) := ratio m e
    let (c, d) := ratio n f
    if c = 0 then .nan else ofRatio (s != t) (a * d) (b * c)
  | _, _ => .nan

/-- The number nearest to a power of ten. -/
def powerOfTen (k : Nat) : Binary64 := ofNat (Nat.pow 10 k)

/-- Rounding a ratio is off by at most half a unit. -/
theorem roundRatio_near (num : Nat) {den : Nat} (pos : 0 < den) :
    2 * num ≤ (2 * roundRatio num den + 1) * den ∧
      (2 * roundRatio num den) * den ≤ 2 * num + den := by
  have key := Nat.div_add_mod num den
  have less := Nat.mod_lt num pos
  unfold roundRatio
  simp only
  generalize hq : num / den = q at *
  generalize hr : num % den = r at *
  have e1 : num = q * den + r := by rw [Nat.mul_comm] at key; omega
  subst e1
  split
  · next h =>
    have : 2 * r ≤ den := by omega
    constructor
    · have : (2 * q + 1) * den = 2 * (q * den) + den := by
        rw [Nat.add_mul, Nat.mul_assoc]; omega
      omega
    · rw [Nat.mul_assoc]; omega
  · next h =>
    have : den ≤ 2 * r := by omega
    have e2 : (q + 1) * den = q * den + den := by rw [Nat.add_mul]; omega
    constructor
    · have : (2 * (q + 1) + 1) * den = 2 * (q * den) + 3 * den := by
        rw [Nat.add_mul, Nat.mul_assoc, e2]; omega
      omega
    · rw [Nat.mul_assoc, e2]; omega

end Binary64

end EventRelay
