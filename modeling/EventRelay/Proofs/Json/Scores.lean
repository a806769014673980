import EventRelay.Proofs.Binary64.Shortest
import EventRelay.Proofs.Json.Numerals

/-!
# Floating-point literals stay finite

Whatever digits a literal has, the number computed from it is refused or fits 64 bits. The literal
that is written for a number that fits 64 bits is in order and is never refused: written by
position it is read by a division, and written with a power of ten by a product that stays below
the limit.
-/

namespace EventRelay.Numeral

open Binary64 (digitsValue)

/-! ## Gathering digits -/

/-- One more digit behind a number. -/
private def push (n : Nat) (c : Char) : Nat := n * 10 + (c.toNat - 48)

private theorem le_foldl_push (ds : List Char) (n : Nat) : n ≤ ds.foldl push n := by
  induction ds generalizing n with
  | nil => exact Nat.le_refl n
  | cons c cs ih => exact Nat.le_trans (by rw [push]; omega) (ih (push n c))

/-- Digits whose number fits 64 bits are all gathered. -/
private theorem gather_eq {ds : List Char} {n : Nat} (taken : Nat)
    (fits : ds.foldl push n ≤ Text.maxU64) :
    gather n taken ds = (ds.foldl push n, taken + ds.length) := by
  induction ds generalizing n taken with
  | nil => rfl
  | cons c cs ih =>
    have next : n * 10 + (c.toNat - 48) ≤ Text.maxU64 :=
      Nat.le_trans (le_foldl_push cs (push n c)) fits
    have all := ih (taken + 1) fits
    rw [gather, if_pos next, List.length_cons, Nat.add_comm cs.length 1, ← Nat.add_assoc]
    exact all

/-- What is gathered fits 64 bits. -/
theorem gather_le {n : Nat} (fits : n ≤ Text.maxU64) (taken : Nat) (ds : List Char) :
    (gather n taken ds).1 ≤ Text.maxU64 := by
  induction ds generalizing n taken with
  | nil => exact fits
  | cons c cs ih =>
    rw [gather]
    split
    · next next => exact ih next (taken + 1)
    · exact fits

/-! ## Scaling -/

theorem representable_scale {x y : Binary64} {power : Int} (fits : x.Representable)
    (scaled : scale x power = some y) : y.Representable := by
  fun_induction scale x power with
  | case1 x power small whole product finite =>
    rw [Option.some.injEq] at scaled
    exact scaled ▸ Binary64.representable_mul_of_isFinite finite
  | case2 => cases scaled
  | case3 x power small negative =>
    cases scaled
    exact Binary64.representable_div fits (Binary64.isFinite_powerOfTen small)
      (Binary64.one_le_powerOfTen small)
  | case4 => cases scaled; exact fits
  | case5 => cases scaled
  | case6 x power large nonzero negative ih =>
    exact ih (Binary64.representable_div fits (Binary64.isFinite_powerOfTen (by decide))
      (Binary64.one_le_powerOfTen (by decide))) scaled

/-- A negative power of ten is never refused. -/
theorem isSome_scale_of_neg {x : Binary64} {power : Int} (negative : power < 0) :
    (scale x power).isSome = true := by
  fun_induction scale x power with
  | case1 | case2 | case5 => omega
  | case3 | case4 => rfl
  | case6 x power large nonzero _ ih => exact ih (by omega)

theorem isSome_scale_of_product {x : Binary64} {power : Nat} (small : power ≤ 308)
    (product : (x.mul (.powerOfTen power)).Representable) : (scale x power).isSome = true := by
  rw [scale, if_pos (by exact small), if_pos (Int.natCast_nonneg power)]
  simp [Binary64.isFinite_of_representable product]

/-! ## The number of a literal -/

/-- The power of ten behind the digits of a literal. -/
def power (n : Numeral) : Int :=
  (match n.exponent with
    | none => 0
    | some (minus, digits) => if minus then -(digitsNat digits : Int) else digitsNat digits) -
    n.fraction.length

/-- The digits of a literal as one number. -/
def significand (n : Numeral) : Nat := digitsNat (n.whole ++ n.fraction)

/-- A literal whose digits fit 64 bits denotes them times its power of ten. -/
theorem toBinary64?_eq {n : Numeral} (fits : n.significand ≤ Text.maxU64) :
    n.toBinary64? = (scale (.ofNat n.significand) n.power).map fun x =>
      if n.negative then x.neg else x := by
  have folded : n.significand = n.fraction.foldl push (n.whole.foldl push 0) := by
    rw [← List.foldl_append]
    rfl
  have whole := gather_eq 0
    (Nat.le_trans (le_foldl_push n.fraction (n.whole.foldl push 0)) (folded ▸ fits))
  have fraction := gather_eq 0 (folded ▸ fits)
  unfold toBinary64? power
  simp only [whole, fraction, ← folded]
  congr 2
  rcases n.exponent with _ | ⟨minus, digits⟩ <;> dsimp only <;> omega

/-- Whole numbers of 64 bits are no numbers out of range. -/
private theorem lt_limit_of_bounded {n : Nat} (small : n ≤ Text.maxU64) : n < Binary64.limit :=
  Nat.lt_of_le_of_lt (small.trans (by decide)) Binary64.two_pow_lt_limit

/-- A literal that is not refused denotes a number that fits 64 bits. -/
theorem representable_of_toBinary64? {n : Numeral} {x : Binary64} (read : n.toBinary64? = some x) :
    x.Representable := by
  have fits {n taken : Nat} (small : n ≤ Text.maxU64) (ds : List Char) :
      (Binary64.ofNat (gather n taken ds).1).Representable :=
    Binary64.representable_ofNat (lt_limit_of_bounded (gather_le small taken ds))
  unfold toBinary64? at read
  rw [Option.map_eq_some_iff] at read
  obtain ⟨y, scaled, rfl⟩ := read
  have held := representable_scale (fits (gather_le (Nat.zero_le _) 0 n.whole) n.fraction) scaled
  split
  · exact Binary64.representable_neg held
  · exact held

/-- A whole number of 64 bits is never refused. -/
theorem isSome_toBinary64?_of_whole {n : Numeral} (whole : n.fraction = [])
    (positional : n.exponent = none) (fits : digitsNat n.whole ≤ Text.maxU64) :
    n.toBinary64?.isSome = true := by
  have significand : n.significand = digitsNat n.whole := by
    rw [Numeral.significand, whole, List.append_nil]
  have power : n.power = (0 : Nat) := by
    rw [Numeral.power, whole, positional]
    rfl
  rw [toBinary64?_eq (significand ▸ fits), Option.isSome_map, power]
  refine isSome_scale_of_product (by decide) (Binary64.representable_mul_one ?_)
  exact Binary64.representable_ofNat (lt_limit_of_bounded (significand ▸ fits))

/-! ## Literals of numbers -/

/-- Zeros in front do not count. -/
theorem digitsNat_replicate_zero_append (z : Nat) (ds : List Char) :
    digitsNat (List.replicate z '0' ++ ds) = digitsNat ds := by
  simp only [digitsNat, digitsValue_eq, Nat.ofDigitChars_append, Nat.ofDigitChars_replicate_zero,
    Nat.mul_zero]

theorem digitsNat_toDigits (n : Nat) : digitsNat (Nat.toDigits 10 n) = n :=
  digitsValue_toDigits n

theorem digitsNat_lt {ds : List Char} (digits : AllDigits ds) : digitsNat ds < 10 ^ ds.length := by
  induction ds with
  | nil => decide
  | cons c cs ih =>
    have first := digits c List.mem_cons_self
    have digit : c.toNat - 48 ≤ 9 := by
      simp only [Char.isDigit, Bool.and_eq_true, decide_eq_true_eq] at first
      exact Nat.sub_le_sub_right (UInt32.le_iff_toNat_le.mp first.2) 48
    have rest := ih fun d member => digits d (List.mem_cons_of_mem c member)
    simp only [digitsNat, digitsValue_eq] at rest ⊢
    rw [Nat.ofDigitChars_cons, Nat.ofDigitChars_eq_ofDigitChars_zero, List.length_cons,
      Nat.pow_succ]
    simp only [Nat.mul_zero, Nat.zero_add]
    have := Nat.mul_le_mul_left (10 ^ cs.length) digit
    change 10 ^ cs.length * (c.toNat - 48) + _ < _
    omega

/-- The literal of a positive decimal is in order. -/
theorem wellFormed_ofDigits (negative : Bool) {n : Nat} (pos : 0 < n) (k : Int) :
    (ofDigits negative (Nat.toDigits 10 n) k).WellFormed := by
  have nonempty : Nat.toDigits 10 n ≠ [] := Nat.toDigits_ne_nil
  have all := allDigits_toDigits n
  have first := head_toDigits_ne_zero pos
  generalize Nat.toDigits 10 n = ds at *
  have front {i : Nat} (some : i ≠ 0) : ds.take i ≠ [] ∧ (ds.take i).head? ≠ Option.some '0' := by
    refine ⟨fun none => ?_, ?_⟩
    · rcases List.take_eq_nil_iff.mp none with zero | empty
      · exact some zero
      · exact nonempty empty
    · rwa [List.head?_take, if_neg some]
  have part {i : Nat} : AllDigits (ds.take i) ∧ AllDigits (ds.drop i) :=
    allDigits_append.mp (by rwa [List.take_append_drop])
  unfold ofDigits
  dsimp only
  split
  · split
    · exact ⟨.inl rfl, by simp [AllDigits], allDigits_append.mpr ⟨allDigits_replicate_zero _, all⟩,
        by simp⟩
    · split
      · refine ⟨.inr ⟨List.append_ne_nil_of_left_ne_nil nonempty _, ?_⟩,
          allDigits_append.mpr ⟨all, allDigits_replicate_zero _⟩, by simp [AllDigits], by simp⟩
        rwa [List.head?_append, List.head?_eq_some_head nonempty, Option.some_or,
          ← List.head?_eq_some_head]
      · exact ⟨.inr (front (by omega)), part.1, part.2, by simp⟩
  · refine ⟨.inr (front (by decide)), part.1, part.2, fun minus digits written => ?_⟩
    cases written
    exact ⟨Nat.toDigits_ne_nil, allDigits_toDigits _⟩

/-- The literal of a decimal of at most 58 bits has a negative power of ten, unless it is written
with exactly the digits and the power of the decimal. -/
theorem ofDigits_parts (negative : Bool) {n : Nat} (bits : n < 2 ^ 58) (k : Int) :
    (ofDigits negative (Nat.toDigits 10 n) k).significand ≤ Text.maxU64 ∧
      ((ofDigits negative (Nat.toDigits 10 n) k).power < 0 ∨
        (ofDigits negative (Nat.toDigits 10 n) k).significand = n ∧
          (ofDigits negative (Nat.toDigits 10 n) k).power = k) := by
  have value := digitsNat_toDigits n
  have all := allDigits_toDigits n
  have length : 0 < (Nat.toDigits 10 n).length := Nat.length_toDigits_pos
  have small : n ≤ Text.maxU64 := Nat.le_of_lt (Nat.lt_trans bits (by decide))
  generalize Nat.toDigits 10 n = ds at *
  have split_at (i : Nat) : digitsNat (ds.take i ++ ds.drop i) = n := by
    rw [List.take_append_drop, value]
  unfold ofDigits significand power
  dsimp only
  split
  · next range =>
    split
    · have same (z : Nat) : digitsNat (['0'] ++ (List.replicate z '0' ++ ds)) = n := by
        rw [show ['0'] = List.replicate 1 '0' from rfl, digitsNat_replicate_zero_append,
          digitsNat_replicate_zero_append, value]
      refine ⟨(same _).trans_le small, .inl ?_⟩
      simp only [List.length_append]
      omega
    · split
      · next inside =>
        refine ⟨?_, .inl (show (0 : Int) - 1 < 0 by decide)⟩
        have digits : AllDigits (ds ++ List.replicate ((ds.length + k).toNat - ds.length) '0' ++
            ['0']) :=
          allDigits_append.mpr ⟨allDigits_append.mpr ⟨all, allDigits_replicate_zero _⟩,
            allDigits_replicate_zero 1⟩
        have places : (ds ++ List.replicate ((ds.length + k).toNat - ds.length) '0' ++
            ['0']).length ≤ 17 := by
          simp only [List.length_append, List.length_replicate, List.length_cons, List.length_nil]
          omega
        exact (Nat.lt_of_lt_of_le (digitsNat_lt digits)
          (Nat.pow_le_pow_right (by decide) places)).le.trans (by decide)
      · refine ⟨(split_at _).trans_le small, .inl ?_⟩
        simp only [List.length_drop]
        omega
  · refine ⟨(split_at 1).trans_le small, .inr ⟨split_at 1, ?_⟩⟩
    simp only [List.length_drop, digitsNat_toDigits, decide_eq_true_eq]
    split <;> omega

/-- The literal of a number that fits 64 bits is in order and is not refused. -/
theorem ofBinary64?_readable {x : Binary64} (fits : x.Representable) :
    ∃ n, ofBinary64? x = some n ∧ n.WellFormed ∧ n.toBinary64?.isSome = true := by
  cases x with
  | finite negative m e =>
    obtain ⟨significand, low, high⟩ := fits
    rcases Nat.eq_zero_or_pos m with rfl | pos
    · refine ⟨⟨negative, ['0'], ['0'], none⟩, rfl, ⟨.inl rfl, by simp [AllDigits],
        by simp [AllDigits], by simp⟩, ?_⟩
      cases negative <;> decide +kernel
    · obtain ⟨n, k, shortest, digits, bits, readable⟩ :=
        Binary64.shortest_readable pos significand low high
      refine ⟨ofDigits negative (Nat.toDigits 10 n) k, ?_,
        wellFormed_ofDigits negative digits k, ?_⟩
      · rw [ofBinary64?, if_neg pos.ne', shortest]
      · obtain ⟨held, parts⟩ := ofDigits_parts negative bits k
        rw [toBinary64?_eq held, Option.isSome_map]
        by_cases sign : (ofDigits negative (Nat.toDigits 10 n) k).power < 0
        · exact isSome_scale_of_neg sign
        · obtain ⟨same, power⟩ := parts.resolve_left sign
          obtain ⟨small, product⟩ := readable (power ▸ not_lt.mp sign)
          obtain ⟨k, rfl⟩ := Int.eq_ofNat_of_zero_le (power ▸ not_lt.mp sign)
          rw [same, power]
          exact isSome_scale_of_product (by exact_mod_cast small) product
  | infinite negative => exact absurd fits id
  | nan => exact absurd fits id

end EventRelay.Numeral
