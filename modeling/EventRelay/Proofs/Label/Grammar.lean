import EventRelay.Proofs.Json.Literals
import EventRelay.Proofs.Payload.Validity
import EventRelay.Proofs.Text.Ascii

/-!
# The grammar of labels

A label has one to 128 characters, all from an alphabet within ASCII. A text that is refused shows
in the error by its first 32 characters, and not by more of it; the reason is the first that applies
of three. The length is measured in bytes, so that a text of fewer characters can be too long, but
never a text of the alphabet. In JSON exactly those literals are labels whose unescaped texts are.
-/

namespace EventRelay.Label

/-! ## The grammar -/

/-- A letter or a digit of ASCII, or one of five marks. -/
def InAlphabet (c : Char) : Prop :=
  ('A' ≤ c ∧ c ≤ 'Z' ∨ 'a' ≤ c ∧ c ≤ 'z') ∨ '0' ≤ c ∧ c ≤ '9' ∨ c ∈ ['-', '_', '.', ':', '/']

instance (c : Char) : Decidable (InAlphabet c) := inferInstanceAs (Decidable (_ ∨ _ ∨ _))

/-- A text obeys the grammar. -/
structure Grammatical (s : String) : Prop where
  nonempty : 1 ≤ s.length
  bounded : s.length ≤ 128
  letters : ∀ c ∈ s.toList, InAlphabet c

/-- Why a text is refused: the first that applies of three reasons. -/
inductive Refused (s : String) : String → Prop
  /-- There is nothing in it. -/
  | empty (none : s.length = 0) : Refused s "label cannot be empty"
  /-- It has too many bytes. -/
  | long (some : 0 < s.length) (bytes : 128 < s.utf8ByteSize) :
    Refused s "label length must be <= 128"
  /-- One of its characters is not in the alphabet. -/
  | foreign (some : 0 < s.length) (bytes : s.utf8ByteSize ≤ 128) {c : Char}
    (member : c ∈ s.toList) (other : ¬ InAlphabet c) :
    Refused s "label must contain ASCII alphanumeric, dash, underscore, dot, colon, or slash"

variable {s : String} {c : Char}

theorem allowed_iff : allowed c = true ↔ InAlphabet c := by
  have upper : c.isUpper = true ↔ 'A' ≤ c ∧ c ≤ 'Z' := decide_eq_true_iff
  have lower : c.isLower = true ↔ 'a' ≤ c ∧ c ≤ 'z' :=
    Bool.and_eq_true_iff.trans (and_congr decide_eq_true_iff decide_eq_true_iff)
  have digit : c.isDigit = true ↔ '0' ≤ c ∧ c ≤ '9' :=
    Bool.and_eq_true_iff.trans (and_congr decide_eq_true_iff decide_eq_true_iff)
  simp only [allowed, InAlphabet, Bool.or_eq_true, Text.isAlphanum_iff, upper, lower, digit,
    decide_eq_true_eq, List.mem_cons, List.not_mem_nil, or_false, or_assoc]

theorem valid_iff : Valid s ↔ Grammatical s := by
  constructor
  · rintro ⟨nonempty, bounded, letters⟩
    exact ⟨String.length_toList ▸ nonempty, String.length_toList ▸ bounded,
      fun c member => allowed_iff.mp (letters c member)⟩
  · rintro ⟨nonempty, bounded, letters⟩
    exact ⟨String.length_toList ▸ nonempty, String.length_toList ▸ bounded,
      fun c member => allowed_iff.mpr (letters c member)⟩

/-! ## Refused texts -/

/-- The beginning of a text that an error shows has 32 characters, or all if there are fewer. -/
theorem eq_preview_iff {shown : String} :
    shown = preview s ↔ shown.toList <+: s.toList ∧ shown.length = min 32 s.length := by
  rw [← String.toList_inj, preview, String.toList_ofList, ← String.length_toList (s := shown),
    ← String.length_toList (s := s)]
  constructor
  · intro same
    rw [same]
    exact ⟨List.take_prefix _ _, List.length_take⟩
  · rintro ⟨start, length⟩
    rw [List.prefix_iff_eq_take.mp start, List.take_eq_take_iff, length, previewLength]
    omega

/-- Every text that is refused has a reason, and the error names it. -/
theorem ofText_eq_error_iff {e : EventError} :
    ofText s = .error e ↔ ∃ reason, Refused s reason ∧ e = .invalidLabel (preview s) reason := by
  have empty_iff : s.toList = [] ↔ s.length = 0 := by
    rw [← String.length_toList, List.length_eq_zero_iff]
  have foreign_iff : ¬s.toList.all allowed = true ↔ ∃ c ∈ s.toList, ¬ InAlphabet c := by
    rw [Bool.not_eq_true, List.all_eq_false]
    simp only [allowed_iff]
  have long_iff : maxLength < Text.byteLength s.toList ↔ 128 < s.utf8ByteSize := by
    rw [Text.byteLength_toList, maxLength]
  unfold ofText
  constructor
  · intro refused
    split at refused
    · next empty =>
      cases refused
      exact ⟨_, .empty (empty_iff.mp empty), by rw [preview, empty]; rfl⟩
    · next some =>
      rw [empty_iff, ← ne_eq, ← Nat.pos_iff_ne_zero] at some
      split at refused
      · next long =>
        cases refused
        exact ⟨_, .long some (long_iff.mp long), rfl⟩
      · next short =>
        rw [long_iff] at short
        split at refused
        · cases refused
        · next other =>
          cases refused
          obtain ⟨c, member, foreign⟩ := foreign_iff.mp other
          exact ⟨_, .foreign some (Nat.le_of_not_lt short) member foreign, rfl⟩
  · rintro ⟨reason, refused, rfl⟩
    cases refused with
    | empty none =>
      have empty := empty_iff.mpr none
      rw [dif_pos empty, preview, empty]
      rfl
    | long some bytes =>
      rw [dif_neg fun empty => some.ne' (empty_iff.mp empty), dif_pos (long_iff.mpr bytes)]
    | foreign some bytes member other =>
      rw [dif_neg fun empty => some.ne' (empty_iff.mp empty),
        dif_neg (mt long_iff.mp (Nat.not_lt.mpr bytes)),
        dif_neg (foreign_iff.mpr ⟨_, member, other⟩)]

/-! ## Labels in JSON -/

/-- A text is decoded as a label exactly if it is a string literal whose text is accepted. -/
theorem decode?_eq_some_iff {text : String} {l : Label} :
    Json.decode? ofJson? text = some l ↔
      ∃ content, Json.Denotes text content ∧ ofText content = .ok l := by
  simp only [← Json.parse_bind_toText?_eq_some_iff, Json.decode?, Option.bind_eq_some_iff,
    ofJson?_eq_some_iff]
  constructor
  · rintro ⟨j, parsed, content, string, accepted⟩
    exact ⟨content, ⟨j, parsed, string⟩, accepted⟩
  · rintro ⟨content, ⟨j, parsed, string⟩, accepted⟩
    exact ⟨j, parsed, content, string, accepted⟩

/-- Exactly the texts that obey the grammar are labels, and they are kept as they are. Every other
text is refused with the first reason that applies, and the error shows its first 32 characters, or
all of them if there are fewer. A text in JSON is decoded as a label only if it is a string literal,
and then exactly if the unescaped text is a label, as that label. -/
theorem labels_are_the_texts_of_the_grammar :
    (∀ s, (∃ l, ofText s = .ok l) ↔ Grammatical s) ∧
    (∀ (s : String) (l : Label), ofText s = .ok l ↔ Grammatical s ∧ l.text = s) ∧
    (∀ (s : String) (e : EventError), ofText s = .error e ↔
      ∃ shown reason, e = .invalidLabel shown reason ∧ Refused s reason ∧
        shown.toList <+: s.toList ∧ shown.length = min 32 s.length) ∧
    (∀ text, (∃ l, Json.decode? ofJson? text = some l) → ∃ content, Json.Denotes text content) ∧
    ∀ text content, Json.Denotes text content →
      ∀ l, Json.decode? ofJson? text = some l ↔ ofText content = .ok l := by
  refine ⟨fun s => exists_ofText_iff.trans valid_iff, fun s l => ?_, fun s e => ?_, ?_, ?_⟩
  · rw [ofText_eq_ok_iff]
    constructor
    · rintro rfl
      exact ⟨valid_iff.mp l.valid, rfl⟩
    · rintro ⟨-, same⟩
      exact same
  · rw [ofText_eq_error_iff]
    constructor
    · rintro ⟨reason, refused, rfl⟩
      exact ⟨_, reason, rfl, refused, eq_preview_iff.mp rfl⟩
    · rintro ⟨shown, reason, rfl, refused, start⟩
      exact ⟨reason, refused, by rw [eq_preview_iff.mpr start]⟩
  · rintro text ⟨l, read⟩
    obtain ⟨content, literal, -⟩ := decode?_eq_some_iff.mp read
    exact ⟨content, literal⟩
  · intro text content literal l
    rw [decode?_eq_some_iff]
    constructor
    · rintro ⟨other, denoted, accepted⟩
      rwa [Json.denotes_unique literal denoted]
    · intro accepted
      exact ⟨content, literal, accepted⟩

/-- A text of characters that take two bytes each. -/
def accents (n : Nat) : String := String.ofList (List.replicate n 'é')

private theorem length_accents (n : Nat) : (accents n).length = n := by
  rw [accents, String.length_ofList, List.length_replicate]

private theorem utf8ByteSize_accents (n : Nat) : (accents n).utf8ByteSize = n * 2 := by
  rw [accents, ← Text.byteLength_toList, String.toList_ofList]
  induction n with
  | zero => rfl
  | succ n ih =>
    rw [List.replicate_succ, Text.byteLength, ih, Nat.succ_mul, Nat.add_comm]
    rfl

private theorem accents_shown {n : Nat} (enough : 32 ≤ n) :
    (accents 32).toList <+: (accents n).toList ∧
      (accents 32).length = min 32 (accents n).length := by
  rw [length_accents, length_accents, accents, accents, String.toList_ofList,
    String.toList_ofList, List.prefix_iff_eq_take, List.length_replicate, List.take_replicate,
    Nat.min_eq_left enough]
  exact ⟨rfl, rfl⟩

/-- A literal with two kinds of escapes is a label. A text of 65 characters that takes 130 bytes is
too long, and one of 64 such characters is refused for what they are; both show 32 of them. -/
theorem escaped_literal_is_label :
    Json.Denotes "\"hr\\u002eleave\\/v2\" " "hr.leave/v2" ∧
    Json.decode? ofJson? "\"hr\\u002eleave\\/v2\" " = some ⟨"hr.leave/v2", by decide⟩ ∧
    ofText (accents 65) = .error (.invalidLabel (accents 32) "label length must be <= 128") ∧
    ofText (accents 64) = .error (.invalidLabel (accents 32)
      "label must contain ASCII alphanumeric, dash, underscore, dot, colon, or slash") := by
  obtain ⟨-, accepts, refuses, -, decodes⟩ := labels_are_the_texts_of_the_grammar
  have literal : Json.Denotes "\"hr\\u002eleave\\/v2\" " "hr.leave/v2" :=
    Json.parse_bind_toText?_eq_some_iff.mp (by decide +kernel)
  have grammatical : Grammatical "hr.leave/v2" := valid_iff.mp (by decide)
  have long : 128 < (accents 65).utf8ByteSize := by
    rw [utf8ByteSize_accents]
    decide
  have member : 'é' ∈ (accents 64).toList := by
    rw [accents, String.toList_ofList]
    decide
  refine ⟨literal, (decodes _ _ literal _).mpr ((accepts _ _).mpr ⟨grammatical, rfl⟩), ?_, ?_⟩
  · exact (refuses _ _).mpr
      ⟨_, _, rfl, .long (by rw [length_accents]; decide) long, accents_shown (by decide)⟩
  · exact (refuses _ _).mpr
      ⟨_, _, rfl, .foreign (by rw [length_accents]; decide) (by rw [utf8ByteSize_accents]) member
        (by decide), accents_shown (by decide)⟩

end EventRelay.Label
