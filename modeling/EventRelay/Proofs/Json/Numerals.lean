import Mathlib.Tactic.Common
import EventRelay.Json.Decode

/-!
# Number literals read back

A literal whose digits are in order is read back from its text as long as the text goes on with no
character of a number. The literals that are written for natural numbers and integers are in order
and denote those numbers.
-/

namespace EventRelay

open Binary64 (spanDigits digitsValue)

/-! ## Digits -/

/-- All characters are digits. -/
def AllDigits (cs : List Char) : Prop := ∀ c ∈ cs, c.isDigit = true

theorem allDigits_append {cs ds : List Char} :
    AllDigits (cs ++ ds) ↔ AllDigits cs ∧ AllDigits ds := by
  simp [AllDigits, or_imp, forall_and]

theorem allDigits_replicate_zero (n : Nat) : AllDigits (List.replicate n '0') := by
  intro c member
  rw [List.eq_of_mem_replicate member]
  rfl

theorem allDigits_toDigits (n : Nat) : AllDigits (Nat.toDigits 10 n) :=
  fun _ member => Nat.isDigit_of_mem_toDigits (by decide) (by decide) member

/-- The text goes on with no digit. -/
def NoDigit (cs : List Char) : Prop := ∀ c ∈ cs.head?, c.isDigit = false

theorem spanDigits_append {ds rest : List Char} (digits : AllDigits ds) (stop : NoDigit rest) :
    spanDigits (ds ++ rest) = (ds, rest) := by
  have first : rest.takeWhile Char.isDigit = [] ∧ rest.dropWhile Char.isDigit = rest := by
    cases rest with
    | nil => exact ⟨rfl, rfl⟩
    | cons c cs => simp [stop c rfl]
  rw [spanDigits, List.takeWhile_append_of_pos digits, List.dropWhile_append_of_pos digits, first.1,
    first.2, List.append_nil]

/-- The first digit of a positive number is not zero. -/
theorem head_toDigits_ne_zero {n : Nat} (pos : 0 < n) :
    (Nat.toDigits 10 n).head? ≠ some '0' := by
  induction n using Nat.strongRecOn with
  | _ n ih =>
    rw [Nat.toDigits_eq_if (by decide)]
    split
    · simpa using Nat.ne_of_gt pos
    · next large =>
      rw [List.head?_append, List.head?_eq_some_head Nat.toDigits_ne_nil, Option.some_or,
        ← List.head?_eq_some_head]
      exact ih (n / 10) (by omega) (by omega)

/-- The value of digits, most significant first, is the one that the library computes. -/
theorem digitsValue_eq (ds : List Char) : digitsValue ds = Nat.ofDigitChars 10 ds 0 := by
  rw [digitsValue, Nat.ofDigitChars]
  simp only [Nat.mul_comm]
  rfl

@[simp] theorem digitsValue_toDigits (n : Nat) : digitsValue (Nat.toDigits 10 n) = n := by
  rw [digitsValue_eq, Nat.ofDigitChars_ten_toDigits]

namespace Numeral

/-! ## Literals in order -/

/-- The whole part has no superfluous zero in front, and every other part that is present has a
digit. -/
structure WellFormed (n : Numeral) : Prop where
  whole : n.whole = ['0'] ∨ n.whole ≠ [] ∧ n.whole.head? ≠ some '0'
  wholeDigits : AllDigits n.whole
  fractionDigits : AllDigits n.fraction
  exponentDigits : ∀ minus digits, n.exponent = some (minus, digits) →
    digits ≠ [] ∧ AllDigits digits

theorem wellFormed_ofNat (n : Nat) : (ofNat n).WellFormed where
  whole := by
    rcases Nat.eq_zero_or_pos n with rfl | pos
    · exact .inl (Nat.toDigits_zero 10)
    · exact .inr ⟨Nat.toDigits_ne_nil, head_toDigits_ne_zero pos⟩
  wholeDigits := allDigits_toDigits n
  fractionDigits := by simp [ofNat, AllDigits]
  exponentDigits := by simp [ofNat]

theorem wellFormed_ofInt (i : Int) : (ofInt i).WellFormed :=
  have digits := wellFormed_ofNat i.natAbs
  ⟨digits.whole, digits.wholeDigits, digits.fractionDigits, digits.exponentDigits⟩

/-! ## Reading the parts of a literal -/

/-- The text goes on with no character that could belong to a number. -/
def Ends (cs : List Char) : Prop :=
  ∀ c ∈ cs.head?, c.isDigit = false ∧ c ≠ '.' ∧ c ≠ 'e' ∧ c ≠ 'E'

theorem Ends.noDigit {cs : List Char} (ends : Ends cs) : NoDigit cs :=
  fun c first => (ends c first).1

/-- The text of the fraction. -/
private def fractionText (n : Numeral) : List Char :=
  if n.fraction = [] then [] else '.' :: n.fraction

/-- The text of the power of ten. -/
private def exponentText (n : Numeral) : List Char :=
  match n.exponent with
  | none => []
  | some (minus, digits) => 'e' :: (if minus then '-' else '+') :: digits

variable {n : Numeral} {rest : List Char}

private theorem readPowerMark_text (form : n.WellFormed) (ends : Ends rest) :
    Json.readPowerMark (n.exponentText ++ rest) = some (n.exponent, rest) := by
  unfold exponentText
  split
  · next absent =>
    rw [List.nil_append, absent]
    cases rest with
    | nil => rfl
    | cons c cs =>
      obtain ⟨-, -, small, large⟩ := ends c rfl
      simp [Json.readPowerMark, small, large]
  · next minus digits present =>
    obtain ⟨nonempty, all⟩ := form.exponentDigits minus digits present
    have read (sign : Bool) :
        Json.readPower sign (digits ++ rest) = some (some (sign, digits), rest) := by
      rw [Json.readPower, spanDigits_append all ends.noDigit]
      simp [nonempty]
    rw [present]
    cases minus <;> exact read _

private theorem noDigit_exponentText (ends : Ends rest) : NoDigit (n.exponentText ++ rest) := by
  unfold exponentText
  split
  · exact ends.noDigit
  · intro c first
    cases first
    rfl

private theorem readFraction_text (form : n.WellFormed) (ends : Ends rest) :
    Json.readFraction (n.fractionText ++ (n.exponentText ++ rest)) =
      some (n.fraction, n.exponentText ++ rest) := by
  have stop := noDigit_exponentText (n := n) ends
  unfold fractionText
  split
  · next empty =>
    rw [List.nil_append, empty]
    have point : ∀ more, n.exponentText ++ rest ≠ '.' :: more := by
      intro more same
      unfold exponentText at same
      split at same
      · exact (ends '.' (by rw [show rest = '.' :: more from same]; rfl)).2.1 rfl
      · cases same
    unfold Json.readFraction
    split
    · next more same => exact absurd same (point more)
    · rfl
  · next present =>
    rw [List.cons_append, Json.readFraction, spanDigits_append form.fractionDigits stop]
    simp [present]

private theorem noDigit_fractionText (ends : Ends rest) :
    NoDigit (n.fractionText ++ (n.exponentText ++ rest)) := by
  unfold fractionText
  split
  · exact noDigit_exponentText ends
  · intro c first
    cases first
    rfl

private theorem readWhole_text (form : n.WellFormed) {tail : List Char} (stop : NoDigit tail) :
    Json.readWhole (n.whole ++ tail) = some (n.whole, tail) := by
  rcases form.whole with zero | ⟨nonempty, first⟩
  · rw [zero]
    rfl
  · have digits := form.wholeDigits
    cases whole : n.whole with
    | nil => exact absurd whole nonempty
    | cons c cs =>
      rw [whole] at first digits
      have other : c ≠ '0' := fun same => first (by rw [same]; rfl)
      rw [List.cons_append, Json.readWhole.eq_def]
      split
      · next same => cases same; exact absurd rfl other
      · next same =>
        cases same
        rw [if_pos (digits c List.mem_cons_self),
          spanDigits_append (fun d member => digits d (List.mem_cons_of_mem c member)) stop]
      · next same => cases same

/-- The first character of a literal is a minus sign or a digit. -/
theorem head_text (form : n.WellFormed) (rest : List Char) :
    ∃ c cs, n.text ++ rest = c :: cs ∧ (c = '-' ∨ c.isDigit = true) := by
  obtain ⟨c, cs, whole⟩ : ∃ c cs, n.whole = c :: cs := by
    rcases form.whole with zero | ⟨nonempty, -⟩
    · exact ⟨_, _, zero⟩
    · exact List.exists_cons_of_ne_nil nonempty
  unfold text
  rw [whole]
  split
  · exact ⟨_, _, rfl, .inl rfl⟩
  · exact ⟨_, _, rfl, .inr (form.wholeDigits c (whole ▸ List.mem_cons_self))⟩

/-- The sign of a literal is read before its parts. -/
private theorem readNumeral_eq {cs more tail : List Char} {whole fraction : List Char}
    {exponent : Option (Bool × List Char)} (negative : Bool)
    (hw : Json.readWhole cs = some (whole, more))
    (hf : Json.readFraction more = some (fraction, tail))
    (he : Json.readPowerMark tail = some (exponent, rest)) :
    Json.readNumeral ((if negative then ['-'] else []) ++ cs) =
      some (⟨negative, whole, fraction, exponent⟩, rest) := by
  unfold Json.readNumeral
  cases negative with
  | true => simp [hw, hf, he]
  | false =>
    cases cs with
    | nil => cases hw
    | cons c cs =>
      have unsigned : c ≠ '-' := by
        rintro rfl
        cases hw
      simp only [Bool.false_eq_true, if_false, List.nil_append]
      split
      · next same => exact absurd (List.cons.inj same).1 unsigned
      · simp [hw, hf, he]

/-- A literal in order is read back. -/
theorem readNumeral_text (form : n.WellFormed) (ends : Ends rest) :
    Json.readNumeral (n.text ++ rest) = some (n, rest) := by
  have parts : n.text ++ rest = (if n.negative then ['-'] else []) ++
      (n.whole ++ (n.fractionText ++ (n.exponentText ++ rest))) := by
    rw [text, List.append_assoc, List.append_assoc, List.append_assoc]
    rfl
  rw [parts]
  exact readNumeral_eq n.negative (readWhole_text form (noDigit_fractionText ends))
    (readFraction_text form ends) (readPowerMark_text form ends)

end Numeral

end EventRelay
