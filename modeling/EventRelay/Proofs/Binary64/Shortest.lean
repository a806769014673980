import EventRelay.Binary64.Decimal
import EventRelay.Proofs.Binary64.Rounding

/-!
# Shortest digits stay in range

The shortest decimal of a number lies within half a unit of it and has at most 58 bits of digits.
Read back by one product with a power of ten it does not leave the finite range. Facts about powers
of two and ten over the exponents of 64-bit numbers are checked in whole numbers, exponent by
exponent.
-/

namespace EventRelay.Binary64

/-! ## Powers of ten -/

/-- The magnitude of a finite number as a ratio. -/
def toRatio : Binary64 → Nat × Nat
  | .finite _ m e => ratio m e
  | _ => (0, 1)

theorem toRatio_pos (x : Binary64) : 0 < x.toRatio.2 := by
  cases x with
  | finite s m e => exact ratio_pos m e
  | _ => exact one_pos

theorem toRatio_div (x : Binary64) : (x.toRatio.1 : ℚ) / x.toRatio.2 = x.magnitude := by
  cases x with
  | finite s m e => exact ratio_div m e
  | _ => simp [toRatio, magnitude]

/-- The largest value of the digits before `10 ^ k` in the shortest decimal of a number other than
the largest one. -/
def mostDigits (k : Nat) : Nat := min (2 ^ 58) ((limit - 2 ^ 971) / 10 ^ k)

private theorem powerOfTen_table : ∀ k < 309,
    (powerOfTen k).isFinite = true ∧ (powerOfTen k).toRatio.2 ≤ (powerOfTen k).toRatio.1 ∧
      (mostDigits k + mostDigits k / 2 ^ 53) * (powerOfTen k).toRatio.1 <
        limit * (powerOfTen k).toRatio.2 := by
  decide +kernel

theorem isFinite_powerOfTen {k : Nat} (small : k ≤ 308) : (powerOfTen k).isFinite = true :=
  (powerOfTen_table k (Nat.lt_succ_of_le small)).1

theorem one_le_powerOfTen {k : Nat} (small : k ≤ 308) : 1 ≤ (powerOfTen k).magnitude := by
  rw [← toRatio_div, one_le_div (Nat.cast_pos.mpr (toRatio_pos _))]
  exact Nat.cast_le.mpr (powerOfTen_table k (Nat.lt_succ_of_le small)).2.1

/-- Digits and a power of ten whose exact product keeps half a unit from the limit have a rounded
product. -/
theorem representable_mul_powerOfTen {n k : Nat} (small : n < 2 ^ 58) (exponent : k ≤ 308)
    (less : n * 10 ^ k ≤ limit - 2 ^ 971) :
    ((ofNat n).mul (powerOfTen k)).Representable := by
  have most : n ≤ mostDigits k :=
    le_min small.le ((Nat.le_div_iff_mul_le (by positivity)).mpr less)
  have fits : n < limit := (small.trans (by decide)).trans two_pow_lt_limit
  apply representable_mul (isFinite_of_representable (representable_ofNat fits))
    (isFinite_powerOfTen exponent)
  have table := Nat.cast_lt (α := ℚ) |>.mpr
    (powerOfTen_table k (Nat.lt_succ_of_le exponent)).2.2
  have positive : (0 : ℚ) < (powerOfTen k).toRatio.2 := Nat.cast_pos.mpr (toRatio_pos _)
  calc (ofNat n).magnitude * (powerOfTen k).magnitude
      ≤ (mostDigits k + mostDigits k / 2 ^ 53 : Nat) * (powerOfTen k).magnitude :=
        mul_le_mul_of_nonneg_right ((magnitude_ofNat_le n).trans (Nat.cast_le.mpr
          (Nat.add_le_add most (Nat.div_le_div_right most)))) (magnitude_nonneg _)
    _ < limit := by
      rw [← toRatio_div, ← mul_div_assoc, div_lt_iff₀ positive]
      exact_mod_cast table

/-- A number is the product of itself with the power zero of ten. -/
theorem representable_mul_one {x : Binary64} (fits : x.Representable) :
    (x.mul (powerOfTen 0)).Representable := by
  have one : (powerOfTen 0).magnitude = 1 := by
    rw [show powerOfTen 0 = .finite false (2 ^ 52) (-52) from rfl]
    norm_num [magnitude]
  apply representable_mul (isFinite_of_representable fits) (isFinite_powerOfTen (by decide))
  rw [one, mul_one]
  exact magnitude_lt_limit fits

/-! ## Candidates -/

variable {tie : Tie} {m n : Nat} {e k : Int}

/-- A quarter of a unit, on a scale common with the grid of multiples of `10 ^ k`. -/
private def quarter (e k : Int) : Nat := Nat.pow 10 (-k).toNat <<< (e - 2).toNat

/-- A step of the grid of multiples of `10 ^ k`, on a scale common with quarters of a unit. -/
private def mesh (e k : Int) : Nat := Nat.pow 10 k.toNat <<< (-(e - 2)).toNat

/-- A point of the grid lies in the range of decimals that read back. -/
private def readsBack (m : Nat) (e k : Int) (n : Nat) : Bool :=
  if m % 2 = 0 then
    (readBackRange m e).1 * quarter e k ≤ n * mesh e k &&
      n * mesh e k ≤ (readBackRange m e).2 * quarter e k
  else
    (readBackRange m e).1 * quarter e k < n * mesh e k &&
      n * mesh e k < (readBackRange m e).2 * quarter e k

private theorem quarter_pos (e k : Int) : 0 < quarter e k := by
  rw [quarter, Nat.shiftLeft_eq, Nat.pow_eq]
  positivity

private theorem mesh_pos (e k : Int) : 0 < mesh e k := by
  rw [mesh, Nat.shiftLeft_eq, Nat.pow_eq]
  positivity

private theorem mesh_div_quarter (e k : Int) :
    (mesh e k : ℚ) / quarter e k = 10 ^ k / 2 ^ (e - 2) := by
  simp only [mesh, quarter, Nat.shiftLeft_eq, Nat.pow_eq]
  generalize e - 2 = q
  obtain ⟨i, rfl | rfl⟩ := k.eq_nat_or_neg <;> obtain ⟨j, rfl | rfl⟩ := q.eq_nat_or_neg <;>
    simp [zpow_natCast, zpow_neg, div_eq_mul_inv, mul_comm]

/-- The choice between two neighbours takes one of those that may be taken. -/
private theorem choice_some {P : Nat → Bool} {start : Nat} {down up last : Prop}
    [Decidable down] [Decidable up] [Decidable last]
    (chosen : (if ((start != 0 && P start) && P (start + 1)) = true then
        if down then some start else if up then some (start + 1)
        else if last then some start else some (start + 1)
      else if (start != 0 && P start) = true then some start
      else if P (start + 1) = true then some (start + 1) else none) = some n) :
    n ≠ 0 ∧ P n = true := by
  grind

/-- The choice between two neighbours takes one if the upper one may be taken. -/
private theorem choice_isSome {P : Nat → Bool} {start : Nat} {down up last : Prop}
    [Decidable down] [Decidable up] [Decidable last] (above : P (start + 1) = true) :
    (if ((start != 0 && P start) && P (start + 1)) = true then
        if down then some start else if up then some (start + 1)
        else if last then some start else some (start + 1)
      else if (start != 0 && P start) = true then some start
      else if P (start + 1) = true then some (start + 1) else none) ≠ none := by
  grind

/-- A candidate is not zero and does not exceed the number by more than half a unit. -/
theorem candidate_le (found : candidate tie m e k = some n) :
    0 < n ∧ (n : ℚ) * 10 ^ k ≤ (m + 1 / 2) * 2 ^ e := by
  obtain ⟨nonzero, within⟩ := choice_some (P := readsBack m e k) found
  have le : n * mesh e k ≤ (4 * m + 2) * quarter e k := by
    unfold readsBack at within
    split at within <;> rw [Bool.and_eq_true, decide_eq_true_eq, decide_eq_true_eq] at within
    · exact within.2
    · exact within.2.le
  refine ⟨Nat.pos_of_ne_zero nonzero, ?_⟩
  have unit : (0 : ℚ) < 2 ^ (e - 2) := by positivity
  have le : (n : ℚ) * (mesh e k / quarter e k) ≤ 4 * m + 2 := by
    rw [← mul_div_assoc, div_le_iff₀ (Nat.cast_pos.mpr (quarter_pos e k))]
    exact_mod_cast le
  rw [mesh_div_quarter, ← mul_div_assoc, div_le_iff₀ unit] at le
  calc (n : ℚ) * 10 ^ k ≤ (4 * m + 2) * 2 ^ (e - 2) := le
    _ = (m + 1 / 2) * 2 ^ e := by
      rw [zpow_sub₀ two_ne_zero]
      ring

/-- A grid finer than half a unit has a candidate: the first point above the number. -/
theorem candidate_ne_none (fine : (10 : ℚ) ^ k < 2 ^ (e - 1)) : candidate tie m e k ≠ none := by
  have near : mesh e k < 2 * quarter e k := by
    rw [← Nat.cast_lt (α := ℚ), Nat.cast_mul, Nat.cast_two,
      ← div_lt_iff₀ (Nat.cast_pos.mpr (quarter_pos e k)), mesh_div_quarter,
      div_lt_iff₀ (by positivity), ← zpow_one_add₀ two_ne_zero]
    rwa [show 1 + (e - 2) = e - 1 by omega]
  have above := Nat.lt_mul_div_succ (4 * m * quarter e k) (mesh_pos e k)
  have below := Nat.mul_div_le (4 * m * quarter e k) (mesh e k)
  have low : (readBackRange m e).1 * quarter e k ≤ 4 * m * quarter e k := by
    refine Nat.mul_le_mul_right _ ?_
    unfold readBackRange
    dsimp only
    split <;> omega
  refine choice_isSome (P := readsBack m e k) ?_
  change readsBack m e k (4 * m * quarter e k / mesh e k + 1) = true
  have high : (4 * m * quarter e k / mesh e k + 1) * mesh e k < (4 * m + 2) * quarter e k := by
    rw [Nat.mul_comm, Nat.mul_add, Nat.add_mul]
    omega
  rw [Nat.mul_comm (mesh e k)] at above
  unfold readsBack
  split <;> rw [Bool.and_eq_true, decide_eq_true_eq, decide_eq_true_eq]
  · exact ⟨low.trans above.le, high.le⟩
  · exact ⟨low.trans_lt above, high⟩

/-- The search ends at a grid with a candidate that is the first grid or follows one without. -/
theorem searchGrids_eq {last : Int} (exists_last : candidate tie m e last ≠ none) (fuel : Nat)
    (k : Int) (le : last ≤ k) (enough : k < last + fuel) :
    ∃ n k', searchGrids tie m e fuel k = (n, k') ∧ candidate tie m e k' = some n ∧
      (k' = k ∨ candidate tie m e (k' + 1) = none) := by
  induction fuel generalizing k with
  | zero => omega
  | succ fuel ih =>
    rw [searchGrids]
    cases found : candidate tie m e k with
    | some n => exact ⟨n, k, rfl, found, .inl rfl⟩
    | none =>
      have : last ≠ k := fun same => exists_last (same ▸ found)
      obtain ⟨n, k', result, candidate, before⟩ := ih (k - 1) (by omega) (by omega)
      refine ⟨n, k', result, candidate, .inr ?_⟩
      rcases before with rfl | before
      · rwa [sub_add_cancel]
      · exact before

/-! ## Where the search starts and ends -/

private theorem zpow_eq_div (a : ℚ) (x : Int) :
    a ^ x = a ^ x.toNat / a ^ (-x).toNat := by
  obtain ⟨i, rfl | rfl⟩ := x.eq_nat_or_neg <;> simp

/-- Powers of two whole numbers are compared in whole numbers. -/
private theorem zpow_lt_zpow {a b : Nat} (ha : 0 < a) (hb : 0 < b) {x y : Int}
    (less : a ^ x.toNat * b ^ (-y).toNat < b ^ y.toNat * a ^ (-x).toNat) :
    (a : ℚ) ^ x < (b : ℚ) ^ y := by
  have ha' : (0 : ℚ) < a := Nat.cast_pos.mpr ha
  have hb' : (0 : ℚ) < b := Nat.cast_pos.mpr hb
  rw [zpow_eq_div a, zpow_eq_div b, div_lt_div_iff₀ (by positivity) (by positivity)]
  exact_mod_cast less

/-- The first grid of the search for a number whose leading bit stands for `2 ^ l`. -/
private def firstGrid (l : Int) : Int := l * 30103 / 100000 + 2

private theorem grid_table : ∀ i : Nat, i < 2098 →
    2 ^ ((i : Int) - 1073).toNat * 10 ^ (-firstGrid (i - 1074)).toNat <
        10 ^ (firstGrid (i - 1074)).toNat * 2 ^ (-((i : Int) - 1073)).toNat ∧
      10 ^ (firstGrid (i - 1074) - 23).toNat * 2 ^ (-((i : Int) - 1127)).toNat <
        2 ^ ((i : Int) - 1127).toNat * 10 ^ (-(firstGrid (i - 1074) - 23)).toNat := by
  decide +kernel

/-- Over all exponents the first grid lies above the number, and the last one below half a unit. -/
private theorem grids_reach {l : Int} (low : -1074 ≤ l) (high : l ≤ 1023) :
    (2 : ℚ) ^ (l + 1) < 10 ^ firstGrid l ∧ (10 : ℚ) ^ (firstGrid l - 23) < 2 ^ (l - 53) := by
  obtain ⟨above, below⟩ := grid_table (l + 1074).toNat (by omega)
  rw [Int.toNat_of_nonneg (by omega), show l + 1074 - 1074 = l by omega] at above below
  rw [show l + 1074 - 1073 = l + 1 by omega] at above
  rw [show l + 1074 - 1127 = l - 53 by omega] at below
  exact ⟨by exact_mod_cast zpow_lt_zpow two_pos (by decide) above,
    by exact_mod_cast zpow_lt_zpow (by decide) two_pos below⟩

/-- The shortest decimal of a positive number has between one and 58 bits of digits and lies at most
half a unit above it. -/
theorem shortest_eq (tie : Tie) (pos : 0 < m) (small : m < 2 * leastFull)
    (low : minExponent ≤ e) (high : e ≤ maxExponent) :
    ∃ n k, shortest tie m e = (n, k) ∧ 0 < n ∧ n < 2 ^ 58 ∧
      (n : ℚ) * 10 ^ k ≤ (m + 1 / 2) * 2 ^ e := by
  have bits : m.log2 < 53 := (Nat.log2_lt pos.ne').mpr small
  have least : -1074 ≤ e := low
  have most : e ≤ 971 := high
  have lead : (m : ℚ) + 1 / 2 < 2 ^ ((m.log2 : Int) + 1) := by
    have := (Nat.cast_le (α := ℚ)).mpr (Nat.succ_le_of_lt (Nat.lt_log2_self (n := m)))
    push_cast at this
    rw [zpow_add_one₀ two_ne_zero, zpow_natCast, ← pow_succ]
    linarith
  obtain ⟨above, below⟩ := grids_reach (l := m.log2 + e) (by omega) (by omega)
  have start : candidate tie m e (firstGrid (m.log2 + e)) = none := by
    rw [← Option.not_isSome_iff_eq_none, Option.isSome_iff_exists]
    rintro ⟨n, found⟩
    obtain ⟨pos, le⟩ := candidate_le found
    have one : (1 : ℚ) ≤ n := Nat.one_le_cast.mpr pos
    have scale : (0 : ℚ) < 10 ^ firstGrid (m.log2 + e) := by positivity
    have unit : (0 : ℚ) < 2 ^ e := by positivity
    have top : ((m : ℚ) + 1 / 2) * 2 ^ e < 2 ^ ((m.log2 : Int) + e + 1) := by
      rw [show (m.log2 : Int) + e + 1 = m.log2 + 1 + e by omega, zpow_add₀ two_ne_zero]
      exact mul_lt_mul_of_pos_right lead unit
    nlinarith
  have finish : candidate tie m e (firstGrid (m.log2 + e) - 23) ≠ none :=
    candidate_ne_none (below.trans_le (zpow_le_zpow_right₀ one_le_two (by omega)))
  obtain ⟨n, k, result, found, before⟩ :=
    searchGrids_eq finish 24 (firstGrid (m.log2 + e)) (by omega) (by omega)
  obtain ⟨pos, le⟩ := candidate_le found
  refine ⟨n, k, result, pos, ?_, le⟩
  rcases before with rfl | before
  · rw [start] at found
    cases found
  have coarse : (2 : ℚ) ^ (e - 1) ≤ 10 ^ (k + 1) :=
    not_lt.mp fun fine => candidate_ne_none fine before
  have unit : (0 : ℚ) < 2 ^ e := by positivity
  rw [zpow_sub_one₀ two_ne_zero, zpow_add_one₀ (by norm_num)] at coarse
  have bound : (n : ℚ) * 2 ^ e ≤ (20 * m + 10) * 2 ^ e := by
    have : (0 : ℚ) ≤ n := Nat.cast_nonneg n
    nlinarith
  have bound : n ≤ 20 * m + 10 := by exact_mod_cast le_of_mul_le_mul_right bound unit
  rw [leastFull_eq] at small
  omega

/-- The largest finite number is the only one that comes nearer to the limit than one unit. -/
private theorem below_limit (small : m < 2 * leastFull) (high : e ≤ maxExponent)
    (other : ¬(m = 2 * leastFull - 1 ∧ e = maxExponent)) :
    ((m : ℚ) + 1 / 2) * 2 ^ e ≤ limit - 2 ^ maxExponent := by
  have room : (limit : ℚ) - 2 ^ maxExponent = (2 ^ 53 - 3 / 2) * 2 ^ maxExponent := by
    rw [limit_eq]
    ring
  have top : (0 : ℚ) < 2 ^ maxExponent := by positivity
  rw [leastFull_eq] at small other
  rw [room]
  rcases high.lt_or_eq with less | rfl
  · have half : (2 : ℚ) ^ e ≤ 2 ^ maxExponent / 2 := by
      rw [div_eq_mul_inv, ← zpow_sub_one₀ two_ne_zero]
      exact zpow_le_zpow_right₀ one_le_two (Int.le_sub_one_of_lt less)
    have small : (m : ℚ) + 1 ≤ 2 ^ 53 := by exact_mod_cast small
    have unit : (0 : ℚ) < 2 ^ e := by positivity
    nlinarith
  · have small : m + 2 ≤ 2 ^ 53 := by omega
    have small : (m : ℚ) + 2 ≤ 2 ^ 53 := by exact_mod_cast small
    exact mul_le_mul_of_nonneg_right (by linarith) top.le

private theorem shortest_largest :
    let d := shortest .even (2 * leastFull - 1) maxExponent
    0 < d.1 ∧ d.1 < 2 ^ 58 ∧
      (0 ≤ d.2 → d.2 ≤ 308 ∧ ((ofNat d.1).mul (powerOfTen d.2.toNat)).Representable) := by
  decide +kernel

/-- The shortest decimal of a positive number, and that it is read back without leaving the finite
range where its power of ten is multiplied. -/
theorem shortest_readable (pos : 0 < m) (small : m < 2 * leastFull)
    (low : minExponent ≤ e) (high : e ≤ maxExponent) :
    ∃ n k, shortest .even m e = (n, k) ∧ 0 < n ∧ n < 2 ^ 58 ∧
      (0 ≤ k → k ≤ 308 ∧ ((ofNat n).mul (powerOfTen k.toNat)).Representable) := by
  by_cases largest : m = 2 * leastFull - 1 ∧ e = maxExponent
  · obtain ⟨rfl, rfl⟩ := largest
    have table := shortest_largest
    generalize shortest .even (2 * leastFull - 1) maxExponent = d at table ⊢
    exact ⟨d.1, d.2, rfl, table⟩
  · obtain ⟨n, k, result, digits, bits, le⟩ := shortest_eq .even pos small low high
    refine ⟨n, k, result, digits, bits, fun whole => ?_⟩
    obtain ⟨k, rfl⟩ := Int.eq_ofNat_of_zero_le whole
    have le := le.trans (below_limit small high largest)
    have fits : n * 10 ^ k ≤ limit - 2 ^ 971 := by
      have unit : (2 : ℚ) ^ maxExponent = (2 ^ 971 : Nat) := by
        rw [Nat.cast_pow, Nat.cast_two]
        exact zpow_natCast 2 971
      rw [unit, zpow_natCast, le_sub_iff_add_le] at le
      exact Nat.le_sub_of_add_le (by exact_mod_cast le)
    have exponent : k ≤ 308 := by
      by_contra large
      refine not_lt.mpr fits ?_
      calc limit - 2 ^ 971 < 10 ^ (308 + 1) := by decide +kernel
        _ ≤ 10 ^ k := Nat.pow_le_pow_right (by decide) (not_le.mp large)
        _ ≤ n * 10 ^ k := Nat.le_mul_of_pos_left _ digits
    exact ⟨by exact_mod_cast exponent, representable_mul_powerOfTen bits exponent fits⟩

end EventRelay.Binary64
