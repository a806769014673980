import Mathlib.Algebra.Order.Field.Power
import Mathlib.Tactic.FieldSimp
import Mathlib.Tactic.Linarith
import Mathlib.Tactic.NormNum
import Mathlib.Tactic.Positivity
import Mathlib.Tactic.Ring
import EventRelay.Binary64.Basic

/-!
# Bounds of rounding

The magnitude of a finite number is a rational number. A ratio is rounded to an infinity exactly
from a limit on that lies half a unit above the largest finite number; below it the result fits 64
bits. Products and quotients of finite numbers stay finite as long as their exact magnitude lies
below the limit.
-/

namespace EventRelay.Binary64

/-- The magnitude of a finite number. -/
def magnitude : Binary64 → ℚ
  | .finite _ m e => m * 2 ^ e
  | _ => 0

/-- A finite number that 64 bits can hold. -/
def Representable : Binary64 → Prop
  | .finite _ m e => m < 2 * leastFull ∧ minExponent ≤ e ∧ e ≤ maxExponent
  | _ => False

instance : DecidablePred Representable
  | .finite .. => inferInstanceAs (Decidable (_ ∧ _))
  | .infinite _ => isFalse id
  | .nan => isFalse id

/-- The least magnitude that is rounded to an infinity. -/
def limit : Nat := (2 ^ 54 - 1) * 2 ^ 970

theorem leastFull_eq : leastFull = 2 ^ 52 := rfl

/-- Whole numbers of 64 bits lie far below the limit. -/
theorem two_pow_lt_limit : 2 ^ 64 < limit := by
  have less {i j : Nat} (h : i < j) : 2 ^ i < 2 ^ j := Nat.pow_lt_pow_right Nat.one_lt_two h
  exact (less (by decide : 64 < 970)).trans_le (Nat.le_mul_of_pos_left _ (by decide))

/-- The limit lies half a unit above the largest finite number. -/
theorem limit_eq : (limit : ℚ) = (2 ^ 53 - 1 / 2) * 2 ^ maxExponent := by
  have power : (2 : ℚ) ^ maxExponent = 2 * 2 ^ 970 :=
    (zpow_natCast 2 971).trans (pow_succ' 2 970)
  have front : ((2 ^ 54 - 1 : Nat) : ℚ) = 2 * (2 ^ 53 - 1 / 2) := by norm_num
  rw [power, limit, Nat.cast_mul, Nat.cast_pow, Nat.cast_two, front, mul_left_comm, mul_assoc]

theorem isFinite_of_representable {x : Binary64} (h : x.Representable) : x.isFinite = true := by
  cases x with
  | finite s m e => rfl
  | infinite s => exact absurd h id
  | nan => exact absurd h id

theorem magnitude_nonneg (x : Binary64) : 0 ≤ x.magnitude := by
  cases x with
  | finite s m e => exact mul_nonneg (Nat.cast_nonneg m) (zpow_nonneg zero_le_two e)
  | _ => exact le_rfl

theorem representable_neg {x : Binary64} (h : x.Representable) : x.neg.Representable := by
  cases x <;> exact h

/-- Numbers that 64 bits can hold lie below the limit. -/
theorem magnitude_lt_limit {x : Binary64} (h : x.Representable) : x.magnitude < limit := by
  cases x with
  | finite s m e =>
    obtain ⟨significand, -, exponent⟩ := h
    have small : (m : ℚ) ≤ 2 ^ 53 - 1 := by
      have : m + 1 ≤ 2 ^ 53 := significand
      have := (Nat.cast_le (α := ℚ)).mpr this
      push_cast at this
      linarith
    have power : (2 : ℚ) ^ e ≤ 2 ^ maxExponent := zpow_le_zpow_right₀ one_le_two exponent
    calc (m : ℚ) * 2 ^ e ≤ (2 ^ 53 - 1) * 2 ^ maxExponent :=
          mul_le_mul small power (zpow_nonneg zero_le_two e) (by norm_num)
      _ < limit := by
        rw [limit_eq]
        exact mul_lt_mul_of_pos_right (by norm_num) (zpow_pos two_pos _)
  | infinite s => exact absurd h id
  | nan => exact absurd h id

/-! ## Scaling by powers of two -/

theorem unscale_pos {den : Nat} (pos : 0 < den) (num : Nat) (e : Int) :
    0 < (unscale num den e).2 := by
  simp only [unscale, Nat.shiftLeft_eq]
  positivity

/-- Unscaling divides a ratio by a power of two. -/
theorem unscale_div (num den : Nat) (e : Int) :
    ((unscale num den e).1 : ℚ) / (unscale num den e).2 = num / den / 2 ^ e := by
  simp only [unscale, Nat.shiftLeft_eq]
  obtain ⟨k, rfl | rfl⟩ := e.eq_nat_or_neg
  · simp only [Int.toNat_neg_natCast, Int.toNat_natCast, pow_zero, mul_one]
    push_cast
    rw [zpow_natCast, div_div]
  · simp only [neg_neg, Int.toNat_neg_natCast, Int.toNat_natCast, pow_zero, mul_one]
    push_cast
    rw [zpow_neg, zpow_natCast, div_inv_eq_mul, div_mul_eq_mul_div]

theorem ratio_pos (m : Nat) (e : Int) : 0 < (ratio m e).2 := by
  simp only [ratio, Nat.shiftLeft_eq]
  positivity

/-- The ratio of a finite number is its magnitude. -/
theorem ratio_div (m : Nat) (e : Int) :
    ((ratio m e).1 : ℚ) / (ratio m e).2 = m * 2 ^ e := by
  simp only [ratio, Nat.shiftLeft_eq]
  obtain ⟨k, rfl | rfl⟩ := e.eq_nat_or_neg
  · simp [zpow_natCast]
  · simp [zpow_neg, zpow_natCast, div_eq_mul_inv]

/-! ## The exponent of a ratio -/

variable {num den : Nat}

private theorem ratio_between (pos : 0 < den) (nonzero : num ≠ 0) :
    (2 : ℚ) ^ ((num.log2 : Int) - den.log2 - 1) ≤ num / den ∧
      (num : ℚ) / den < 2 ^ ((num.log2 : Int) - den.log2 + 1) := by
  have num_low : ((2 ^ num.log2 : Nat) : ℚ) ≤ num := Nat.cast_le.mpr (Nat.log2_self_le nonzero)
  have num_high : (num : ℚ) < (2 ^ (num.log2 + 1) : Nat) := Nat.cast_lt.mpr Nat.lt_log2_self
  have den_low : ((2 ^ den.log2 : Nat) : ℚ) ≤ den :=
    Nat.cast_le.mpr (Nat.log2_self_le pos.ne')
  have den_high : (den : ℚ) < (2 ^ (den.log2 + 1) : Nat) := Nat.cast_lt.mpr Nat.lt_log2_self
  have den_pos : (0 : ℚ) < den := Nat.cast_pos.mpr pos
  push_cast at num_low num_high den_low den_high
  constructor
  · rw [le_div_iff₀ den_pos]
    calc (2 : ℚ) ^ ((num.log2 : Int) - den.log2 - 1) * den
        ≤ 2 ^ ((num.log2 : Int) - den.log2 - 1) * 2 ^ (den.log2 + 1) :=
          mul_le_mul_of_nonneg_left den_high.le (by positivity)
      _ = 2 ^ num.log2 := by
        rw [← zpow_natCast, ← zpow_natCast, ← zpow_add₀ two_ne_zero]
        congr 1
        push_cast
        ring
      _ ≤ num := num_low
  · rw [div_lt_iff₀ den_pos]
    calc (num : ℚ) < 2 ^ (num.log2 + 1) := num_high
      _ = 2 ^ ((num.log2 : Int) - den.log2 + 1) * 2 ^ den.log2 := by
        rw [← zpow_natCast, ← zpow_natCast, ← zpow_add₀ two_ne_zero]
        congr 1
        push_cast
        ring
      _ ≤ 2 ^ ((num.log2 : Int) - den.log2 + 1) * den :=
        mul_le_mul_of_nonneg_left den_low (by positivity)

/-- Above the least exponent a ratio has a quotient of 53 bits, and at the least one not more. -/
theorem exponentOf_spec (pos : 0 < den) (nonzero : num ≠ 0) :
    minExponent ≤ exponentOf num den ∧
    (num : ℚ) / den < 2 * leastFull * 2 ^ exponentOf num den ∧
    (minExponent < exponentOf num den →
      (leastFull : ℚ) * 2 ^ exponentOf num den ≤ num / den) := by
  obtain ⟨below, above⟩ := ratio_between pos nonzero
  have full : (leastFull : ℚ) = 2 ^ (52 : Int) := by norm_num [leastFull_eq]
  have twice (e : Int) : 2 * (2 : ℚ) ^ (52 : Int) * 2 ^ e = 2 ^ (e + 53) := by
    rw [zpow_add₀ two_ne_zero]
    ring
  have once (e : Int) : (2 : ℚ) ^ (52 : Int) * 2 ^ e = 2 ^ (e + 52) := by
    rw [zpow_add₀ two_ne_zero]
    ring
  have lowest (low : Int) : 2 * leastFull ≤ (unscale num den low).1 / (unscale num den low).2 ↔
      (2 : ℚ) ^ (low + 53) ≤ num / den := by
    rw [Nat.le_div_iff_mul_le (unscale_pos pos ..), ← Nat.cast_le (α := ℚ), Nat.cast_mul,
      ← le_div_iff₀ (Nat.cast_pos.mpr (unscale_pos pos ..)), unscale_div,
      le_div_iff₀ (by positivity), ← twice, ← full]
    push_cast
    rfl
  rw [full]
  simp only [exponentOf, twice, once]
  generalize hl : (num.log2 : Int) - den.log2 - 53 = low at *
  have below : (2 : ℚ) ^ (low + 52) ≤ num / den := by
    rwa [show low + 52 = (num.log2 : Int) - den.log2 - 1 by omega]
  have above : (num : ℚ) / den < 2 ^ (low + 54) := by
    rwa [show low + 54 = (num.log2 : Int) - den.log2 + 1 by omega]
  have wide {e e' : Int} (h : e ≤ e') (less : (num : ℚ) / den < 2 ^ e) :
      (num : ℚ) / den < 2 ^ e' := less.trans_le (zpow_le_zpow_right₀ one_le_two h)
  refine ⟨le_max_left .., ?_, fun unclamped => ?_⟩
  · split
    · exact wide (by omega) above
    · next small => exact wide (by omega) (not_le.mp (mt (lowest low).mpr small))
  · split at unclamped
    · next large =>
      rw [if_pos large, max_eq_right (by omega), add_right_comm, add_assoc]
      exact (lowest low).mp large
    · next small =>
      rwa [if_neg small, max_eq_right (by omega)]

/-! ## Rounding a ratio -/

/-- In rational numbers, rounding a ratio is off by at most one half. -/
theorem roundRatio_bounds (num : Nat) (pos : 0 < den) :
    (num : ℚ) / den - 1 / 2 ≤ roundRatio num den ∧
      (roundRatio num den : ℚ) ≤ num / den + 1 / 2 := by
  have positive : (0 : ℚ) < den := Nat.cast_pos.mpr pos
  obtain ⟨low, high⟩ := roundRatio_near num pos
  have low := (Nat.cast_le (α := ℚ)).mpr low
  have high := (Nat.cast_le (α := ℚ)).mpr high
  push_cast at low high
  constructor
  · rw [sub_le_iff_le_add, div_le_iff₀ positive]
    linarith
  · rw [div_add_div _ _ positive.ne' two_ne_zero, le_div_iff₀ (by positivity)]
    linarith

/-- What rounding makes of a ratio: the value is the rounded quotient at the exponent of the ratio,
so it is off by at most half a unit, and only a ratio from the limit on has a result that is too
large. -/
structure Rounded (num den m : Nat) (e : Int) : Prop where
  significand : m < 2 * leastFull
  exponent : minExponent ≤ e
  value : (m : ℚ) * 2 ^ e = roundRatio (unscale num den (exponentOf num den)).1
    (unscale num den (exponentOf num den)).2 * 2 ^ exponentOf num den
  overflow : maxExponent < e → (limit : ℚ) ≤ num / den

private theorem limit_le {c : ℚ} {e e' : Int} {x : ℚ} (le : c * 2 ^ e ≤ x) (pos : 0 ≤ c)
    (exponent : e' ≤ e) (enough : (limit : ℚ) ≤ c * 2 ^ e') : limit ≤ x :=
  enough.trans ((mul_le_mul_of_nonneg_left (zpow_le_zpow_right₀ one_le_two exponent) pos).trans le)

/-- A ratio other than zero is rounded to a significand with an exponent, unless it is too large. -/
theorem rounded_ofRatio (negative : Bool) (pos : 0 < den) (nonzero : num ≠ 0) :
    ∃ m e, Rounded num den m e ∧ ofRatio negative num den =
      if maxExponent < e then .infinite negative else .finite negative m e := by
  obtain ⟨least, above, below⟩ := exponentOf_spec pos nonzero
  have upper := (roundRatio_bounds (unscale num den (exponentOf num den)).1
    (unscale_pos pos num (exponentOf num den))).2
  have near := (roundRatio_bounds (unscale num den (exponentOf num den)).1
    (unscale_pos pos num (exponentOf num den))).1
  rw [unscale_div] at upper near
  have unit : (0 : ℚ) < 2 ^ exponentOf num den := by positivity
  unfold ofRatio
  rw [if_neg nonzero]
  dsimp only
  generalize hm : roundRatio (unscale num den (exponentOf num den)).1
    (unscale num den (exponentOf num den)).2 = m at *
  have fits : m ≤ 2 * leastFull := by
    have less : (num : ℚ) / den / 2 ^ exponentOf num den < 2 * leastFull :=
      (div_lt_iff₀ unit).mpr above
    have : (m : ℚ) < (2 * leastFull + 1 : Nat) := by
      push_cast
      linarith
    exact Nat.lt_succ_iff.mp (Nat.cast_lt.mp this)
  by_cases carry : m = 2 * leastFull
  · rw [if_pos carry]
    have same : (leastFull : ℚ) * 2 ^ (exponentOf num den + 1) = m * 2 ^ exponentOf num den := by
      rw [carry, zpow_add_one₀ two_ne_zero]
      push_cast
      ring
    refine ⟨leastFull, exponentOf num den + 1, ⟨by decide, by omega, hm ▸ same,
      fun large => ?_⟩, rfl⟩
    have le : ((2 * leastFull : ℚ) - 1 / 2) * 2 ^ exponentOf num den ≤ num / den := by
      rw [← le_div_iff₀ unit]
      rw [carry] at upper
      push_cast at upper
      linarith
    refine limit_le le (by norm_num [leastFull_eq]) (Int.lt_add_one_iff.mp large) (le_of_eq ?_)
    rw [limit_eq, leastFull_eq]
    norm_num
  · rw [if_neg carry]
    refine ⟨m, exponentOf num den, ⟨by omega, least, by rw [hm], fun large => ?_⟩, rfl⟩
    have unclamped : minExponent < exponentOf num den := lt_trans (by decide) large
    refine limit_le (below unclamped) (Nat.cast_nonneg _) large ?_
    rw [limit_eq, leastFull_eq, zpow_add_one₀ two_ne_zero]
    have := zpow_pos (two_pos (α := ℚ)) maxExponent
    push_cast
    linarith

theorem representable_zero (negative : Bool) : (zero negative).Representable := by
  cases negative <;> decide

/-- A rounded ratio that is finite fits 64 bits. -/
theorem representable_of_isFinite {negative : Bool} (pos : 0 < den)
    (finite : (ofRatio negative num den).isFinite = true) :
    (ofRatio negative num den).Representable := by
  by_cases nonzero : num = 0
  · rw [ofRatio, if_pos nonzero]
    exact representable_zero negative
  · obtain ⟨m, e, rounded, same⟩ := rounded_ofRatio negative pos nonzero
    rw [same] at finite ⊢
    split at finite
    · exact absurd finite Bool.false_ne_true
    · next fits =>
      rw [if_neg fits]
      exact ⟨rounded.significand, rounded.exponent, not_lt.mp fits⟩

/-- A ratio below the limit is rounded to a number that fits 64 bits. -/
theorem representable_ofRatio (negative : Bool) (pos : 0 < den) (less : (num : ℚ) / den < limit) :
    (ofRatio negative num den).Representable := by
  apply representable_of_isFinite pos
  by_cases nonzero : num = 0
  · rw [ofRatio, if_pos nonzero]
    rfl
  · obtain ⟨m, e, rounded, same⟩ := rounded_ofRatio negative pos nonzero
    rw [same, if_neg fun large => not_lt.mpr (rounded.overflow large) less]
    rfl

/-! ## Natural numbers -/

/-- A natural number below the limit is rounded to a number that fits 64 bits. -/
theorem representable_ofNat {n : Nat} (less : n < limit) : (ofNat n).Representable :=
  representable_ofRatio false one_pos (by rw [Nat.cast_one, div_one]; exact Nat.cast_lt.mpr less)

theorem roundRatio_one (n : Nat) : roundRatio n 1 = n := by
  simp [roundRatio, Nat.mod_one]

/-- Rounding adds at most one part in `2 ^ 53` to a natural number, in whole numbers. -/
theorem magnitude_ofNat_le (n : Nat) : (ofNat n).magnitude ≤ (n + n / 2 ^ 53 : Nat) := by
  by_cases nonzero : n = 0
  · subst nonzero
    rw [ofNat, ofRatio, if_pos rfl, zero, magnitude, Nat.cast_zero, zero_mul]
    exact Nat.cast_nonneg _
  obtain ⟨m, e, rounded, same⟩ := rounded_ofRatio false Nat.one_pos nonzero
  have value : (ofNat n).magnitude ≤ m * 2 ^ e := by
    rw [ofNat, same]
    split
    · exact mul_nonneg (Nat.cast_nonneg m) (zpow_nonneg zero_le_two e)
    · exact le_rfl
  refine value.trans ?_
  rw [rounded.value]
  obtain ⟨-, -, below⟩ := exponentOf_spec Nat.one_pos nonzero
  have exact := unscale_div n 1 (exponentOf n 1)
  have unit : (0 : ℚ) < 2 ^ exponentOf n 1 := by positivity
  rw [Nat.cast_one, div_one] at *
  rcases le_or_gt (exponentOf n 1) 0 with small | large
  · -- the quotient is exact
    have one : (unscale n 1 (exponentOf n 1)).2 = 1 := by
      simp [unscale, Int.toNat_of_nonpos small]
    rw [one, Nat.cast_one, div_one] at exact
    rw [one, roundRatio_one, exact, div_mul_cancel₀ _ unit.ne']
    exact Nat.cast_le.mpr (Nat.le_add_right ..)
  · -- half a unit is a whole number that does not exceed the quotient by `2 ^ 53`
    have upper := (roundRatio_bounds (unscale n 1 (exponentOf n 1)).1
      (unscale_pos one_pos n (exponentOf n 1))).2
    rw [exact] at upper
    have near := mul_le_mul_of_nonneg_right upper unit.le
    rw [add_mul, div_mul_cancel₀ _ unit.ne'] at near
    refine near.trans ?_
    obtain ⟨k, hk⟩ : ∃ k : Nat, exponentOf n 1 = k + 1 :=
      ⟨(exponentOf n 1 - 1).toNat, by omega⟩
    have half : 1 / 2 * (2 : ℚ) ^ exponentOf n 1 = (2 ^ k : Nat) := by
      rw [hk, zpow_add_one₀ two_ne_zero, zpow_natCast]
      push_cast
      ring
    have fits : 2 ^ k ≤ n / 2 ^ 53 := by
      rw [Nat.le_div_iff_mul_le (by positivity), ← Nat.cast_le (α := ℚ)]
      refine le_of_eq_of_le ?_ (below (lt_trans (by decide) large))
      rw [hk, leastFull_eq, zpow_add_one₀ two_ne_zero, zpow_natCast]
      push_cast
      ring
    rw [half, Nat.cast_add]
    exact add_le_add_right (Nat.cast_le.mpr fits) _

/-! ## Products and quotients -/

/-- A product whose exact magnitude lies below the limit fits 64 bits. -/
theorem representable_mul {x y : Binary64} (hx : x.isFinite = true) (hy : y.isFinite = true)
    (less : x.magnitude * y.magnitude < limit) : (x.mul y).Representable := by
  match x, y, hx, hy with
  | .finite s m e, .finite t n f, _, _ =>
    change (ofRatio (s != t) ((ratio m e).1 * (ratio n f).1)
      ((ratio m e).2 * (ratio n f).2)).Representable
    refine representable_ofRatio _ (Nat.mul_pos (ratio_pos m e) (ratio_pos n f)) ?_
    rw [Nat.cast_mul, Nat.cast_mul, mul_div_mul_comm, ratio_div, ratio_div]
    exact less

/-- A product that is finite fits 64 bits. -/
theorem representable_mul_of_isFinite {x y : Binary64} (finite : (x.mul y).isFinite = true) :
    (x.mul y).Representable := by
  match x, y, finite with
  | .finite s m e, .finite t n f, finite =>
    exact representable_of_isFinite (Nat.mul_pos (ratio_pos m e) (ratio_pos n f)) finite

/-- Dividing by a number of at least one cannot leave the range. -/
theorem representable_div {x y : Binary64} (hx : x.Representable) (hy : y.isFinite = true)
    (large : 1 ≤ y.magnitude) : (x.div y).Representable := by
  match x, y, hy with
  | .finite s m e, .finite t n f, _ =>
    have quotient : ((ratio n f).1 : ℚ) / (ratio n f).2 = n * 2 ^ f := ratio_div n f
    have nonzero : (ratio n f).1 ≠ 0 := by
      intro zero
      rw [zero, Nat.cast_zero, zero_div] at quotient
      exact absurd (large.trans_eq quotient.symm) (by norm_num)
    simp only [div, if_neg nonzero]
    refine representable_ofRatio _ (Nat.mul_pos (ratio_pos m e) (Nat.pos_of_ne_zero nonzero)) ?_
    rw [Nat.cast_mul, Nat.cast_mul, mul_div_mul_comm, ratio_div, ← inv_div, quotient,
      ← div_eq_mul_inv]
    exact (div_le_self (magnitude_nonneg (.finite s m e)) large).trans_lt (magnitude_lt_limit hx)

end EventRelay.Binary64
