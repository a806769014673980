import EventRelay.Proofs.Checks
import EventRelay.Proofs.Json.Numerals
import EventRelay.Text.Integer

/-!
# Integers read from decimal text

The readers accept exactly the grammar of decimal integers: an optional sign and one or more
digits, leading zeros included, as long as the number that they denote lies in the range. The text
that is written for an integer is among them.
-/

namespace EventRelay.Text

/-! ## The grammar -/

/-- One or more digits, most significant first, and the number that they denote. -/
structure Decimal (ds : List Char) (n : Nat) : Prop where
  nonempty : ds ≠ []
  digits : AllDigits ds
  value : Nat.ofDigitChars 10 ds 0 = n

/-- An unsigned number, which a plus sign may precede. -/
inductive Unsigned : List Char → Nat → Prop
  | bare {ds : List Char} {n : Nat} (decimal : Decimal ds n) : Unsigned ds n
  | plus {ds : List Char} {n : Nat} (decimal : Decimal ds n) : Unsigned ('+' :: ds) n

/-- A signed number: an unsigned one, or a minus sign and digits. -/
inductive Signed : List Char → Int → Prop
  | unsigned {cs : List Char} {n : Nat} (number : Unsigned cs n) : Signed cs n
  | minus {ds : List Char} {n : Nat} (decimal : Decimal ds n) : Signed ('-' :: ds) (-n)

variable {cs ds : List Char} {limit n : Nat}

theorem Decimal.toDigits (n : Nat) : Decimal (Nat.toDigits 10 n) n where
  nonempty := Nat.toDigits_ne_nil
  digits := allDigits_toDigits n
  value := Nat.ofDigitChars_ten_toDigits

theorem not_decimal_nil : ¬ Decimal [] n := fun decimal => decimal.nonempty rfl

/-- A number starts with a digit. -/
theorem not_decimal_cons {c : Char} (other : c.isDigit = false) : ¬ Decimal (c :: cs) n := by
  intro decimal
  rw [decimal.digits c List.mem_cons_self] at other
  cases other

/-! ## Digits -/

theorem digitValue_of_isDigit {c : Char} (digit : c.isDigit = true) :
    digitValue c = some (c.toNat - '0'.toNat) := by
  rw [Char.isDigit, Bool.and_eq_true, decide_eq_true_eq, decide_eq_true_eq] at digit
  exact if_pos digit

theorem digitValue_of_not_isDigit {c : Char} (other : ¬c.isDigit = true) :
    digitValue c = none := by
  rw [Char.isDigit, Bool.and_eq_true, decide_eq_true_eq, decide_eq_true_eq] at other
  exact if_neg other

/-- Digits that follow do not make a number smaller. -/
theorem le_ofDigitChars (ds : List Char) (acc : Nat) : acc ≤ Nat.ofDigitChars 10 ds acc := by
  rw [Nat.ofDigitChars_eq_ofDigitChars_zero]
  have scaled : acc ≤ 10 ^ ds.length * acc :=
    Nat.le_mul_of_pos_left acc (Nat.pow_pos (by decide))
  exact Nat.le_add_right_of_le scaled

/-- Since a number only grows, it passes every check on the way exactly if it passes the last. -/
theorem readDigits_eq_ok_iff {fault : IntegerFault} {acc : Nat} (start : acc ≤ limit) :
    readDigits limit fault acc ds = .ok n ↔
      AllDigits ds ∧ Nat.ofDigitChars 10 ds acc = n ∧ n ≤ limit := by
  induction ds generalizing acc with
  | nil =>
    rw [readDigits, Nat.ofDigitChars_nil, Except.ok.injEq]
    constructor
    · rintro rfl
      exact ⟨by simp [AllDigits], rfl, start⟩
    · rintro ⟨-, same, -⟩
      exact same
  | cons c ds ih =>
    rw [readDigits, Nat.ofDigitChars_cons]
    by_cases digit : c.isDigit = true
    · have all : AllDigits (c :: ds) ↔ AllDigits ds := by simp [AllDigits, digit]
      rw [digitValue_of_isDigit digit, Nat.mul_comm acc 10, all]
      dsimp only
      split
      · next fits => exact ih fits
      · next large =>
        have grows := le_ofDigitChars ds (10 * acc + (c.toNat - '0'.toNat))
        constructor
        · rintro ⟨⟩
        · rintro ⟨-, rfl, fits⟩
          omega
    · rw [digitValue_of_not_isDigit digit]
      constructor
      · rintro ⟨⟩
      · rintro ⟨all, -⟩
        exact absurd (all c List.mem_cons_self) digit

/-- Digits are read from the start exactly if there are any, for what they denote. -/
theorem readDigits_zero_eq_ok_iff {fault : IntegerFault} (nonempty : ds ≠ []) :
    readDigits limit fault 0 ds = .ok n ↔ Decimal ds n ∧ n ≤ limit := by
  rw [readDigits_eq_ok_iff (Nat.zero_le limit)]
  constructor
  · rintro ⟨digits, value, fits⟩
    exact ⟨⟨nonempty, digits, value⟩, fits⟩
  · rintro ⟨decimal, fits⟩
    exact ⟨decimal.digits, decimal.value, fits⟩

/-! ## Numbers with a sign -/

theorem not_unsigned_nil : ¬ Unsigned [] n := by
  rintro ⟨decimal⟩
  exact not_decimal_nil decimal

theorem unsigned_plus_iff : Unsigned ('+' :: ds) n ↔ Decimal ds n := by
  constructor
  · rintro (decimal | decimal)
    · exact absurd decimal (not_decimal_cons rfl)
    · exact decimal
  · exact .plus

theorem unsigned_bare_iff (bare : ∀ ds, cs ≠ '+' :: ds) : Unsigned cs n ↔ Decimal cs n := by
  constructor
  · rintro (decimal | decimal)
    · exact decimal
    · exact absurd rfl (bare _)
  · exact .bare

/-- An unsigned number is read exactly if it does not exceed the limit. -/
theorem readNatural_eq_ok_iff : readNatural limit cs = .ok n ↔ Unsigned cs n ∧ n ≤ limit := by
  unfold readNatural
  split
  · simp [not_unsigned_nil]
  · simp [unsigned_plus_iff, not_decimal_nil]
  · next ds nonempty =>
    rw [unsigned_plus_iff, readDigits_zero_eq_ok_iff nonempty]
  · next nonempty _ bare =>
    rw [unsigned_bare_iff bare, readDigits_zero_eq_ok_iff nonempty]

theorem not_unsigned_minus : ¬ Unsigned ('-' :: ds) n := by
  rintro ⟨decimal⟩
  exact not_decimal_cons rfl decimal

variable {below above : Nat} {i : Int}

theorem signed_minus_iff : Signed ('-' :: ds) i ↔ ∃ n : Nat, Decimal ds n ∧ i = -(n : Int) := by
  constructor
  · rintro (number | decimal)
    · exact absurd number not_unsigned_minus
    · exact ⟨_, decimal, rfl⟩
  · rintro ⟨n, decimal, rfl⟩
    exact .minus decimal

theorem signed_bare_iff (bare : ∀ ds, cs ≠ '-' :: ds) :
    Signed cs i ↔ ∃ n : Nat, Unsigned cs n ∧ i = n := by
  constructor
  · rintro (number | decimal)
    · exact ⟨_, number, rfl⟩
    · exact absurd rfl (bare _)
  · rintro ⟨n, number, rfl⟩
    exact .unsigned number

/-- Without a minus sign the signed reader goes the way of the unsigned one. -/
theorem readSigned_of_no_minus (bare : ∀ ds, cs ≠ '-' :: ds) :
    readSigned below above cs = (readNatural above cs).map Int.ofNat := by
  unfold readSigned
  split
  · rfl
  · exact absurd rfl (bare [])
  · rfl
  · next ds _ => exact absurd rfl (bare ds)
  · next nonempty => rw [readNatural]; exact nonempty
  · rw [readNatural] <;> assumption

/-- After a minus sign only digits are read. -/
theorem readSigned_minus : readSigned below above ('-' :: ds) = .ok i ↔
    ∃ n : Nat, Decimal ds n ∧ n ≤ below ∧ i = -(n : Int) := by
  cases ds with
  | nil => simp [readSigned, not_decimal_nil]
  | cons d ds =>
    have read (n : Nat) : readDigits below .tooSmall 0 (d :: ds) = .ok n ↔ _ :=
      readDigits_zero_eq_ok_iff (List.cons_ne_nil d ds)
    rw [readSigned, map_eq_ok_iff]
    · simp only [bind_eq_ok_iff, read]
      constructor
      · rintro ⟨_, ⟨n, ⟨decimal, fits⟩, ⟨⟩⟩, rfl⟩
        exact ⟨n, decimal, fits, rfl⟩
      · rintro ⟨n, decimal, fits, rfl⟩
        exact ⟨n, ⟨n, ⟨decimal, fits⟩, rfl⟩, rfl⟩
    · exact List.cons_ne_nil d ds

/-- A signed number is read exactly if it lies between the limits. -/
theorem readSigned_eq_ok_iff :
    readSigned below above cs = .ok i ↔ Signed cs i ∧ -(below : Int) ≤ i ∧ i ≤ above := by
  by_cases minus : ∃ ds, cs = '-' :: ds
  · obtain ⟨ds, rfl⟩ := minus
    rw [readSigned_minus, signed_minus_iff]
    constructor
    · rintro ⟨n, decimal, fits, rfl⟩
      exact ⟨⟨n, decimal, rfl⟩, by omega, by omega⟩
    · rintro ⟨⟨n, decimal, rfl⟩, fits, -⟩
      exact ⟨n, decimal, by omega, rfl⟩
  · have bare := not_exists.mp minus
    rw [readSigned_of_no_minus bare, signed_bare_iff bare, map_eq_ok_iff]
    simp only [readNatural_eq_ok_iff]
    constructor
    · rintro ⟨n, ⟨number, fits⟩, rfl⟩
      exact ⟨⟨n, number, rfl⟩, by simp only [Int.ofNat_eq_natCast]; omega, by simpa using fits⟩
    · rintro ⟨⟨n, number, rfl⟩, -, fits⟩
      exact ⟨n, ⟨number, by omega⟩, rfl⟩

/-! ## The text of an integer -/

/-- An integer is written as its digits, after a minus sign if it is negative. -/
theorem toList_toString (i : Int) :
    (toString i).toList = (if i < 0 then ['-'] else []) ++ Nat.toDigits 10 i.natAbs := by
  cases i with
  | ofNat n => exact Nat.toList_repr
  | negSucc n =>
    change ("-" ++ (n + 1).repr).toList = _
    rw [String.toList_append, Nat.toList_repr, if_pos (Int.negSucc_lt_zero n)]
    rfl

/-- An integer is read from the text that is written for it. -/
theorem signed_toString (i : Int) : Signed (toString i).toList i := by
  rw [toList_toString]
  split
  · next negative =>
    have number := Signed.minus (.toDigits i.natAbs)
    rwa [show -(i.natAbs : Int) = i by omega] at number
  · next whole =>
    have number := Signed.unsigned (.bare (.toDigits i.natAbs))
    rwa [show (i.natAbs : Int) = i by omega] at number

/-- The text of an integer consists of digits and perhaps a minus sign. -/
theorem mem_toString {i : Int} {c : Char} (member : c ∈ (toString i).toList) :
    c = '-' ∨ c.isDigit = true := by
  rw [toList_toString, List.mem_append] at member
  rcases member with sign | digit
  · split at sign
    · exact .inl (List.mem_singleton.mp sign)
    · cases sign
  · exact .inr (allDigits_toDigits i.natAbs c digit)

end EventRelay.Text
