import Mathlib.Data.List.TakeWhile
import EventRelay.Json.Decode
import EventRelay.Proofs.Json.Reading
import EventRelay.Proofs.Text.Ascii

/-!
# String literals and their texts

What stands between the quotes of a string literal is unescaped one character at a time: most
characters stand for themselves, a backslash starts one of eight short escapes or a number of four
hexadecimal digits, and two numbers that are halves make one character. A text is read as a string
exactly if it is a literal with white space around it, and the string is the unescaped text.
-/

namespace EventRelay.Json

/-! ## The grammar -/

/-- What may follow a backslash, with the character that is meant. -/
def shortEscapes : List (Char × Char) :=
  [('"', '"'), ('\\', '\\'), ('/', '/'), ('b', Char.ofNat 8), ('f', Char.ofNat 12), ('n', '\n'),
    ('r', '\r'), ('t', '\t')]

/-- The hexadecimal digits in order. -/
def hexDigits : List Char :=
  ['0', '1', '2', '3', '4', '5', '6', '7', '8', '9', 'a', 'b', 'c', 'd', 'e', 'f']

/-- A hexadecimal digit of either case has a value. -/
def HexDigit (c : Char) (value : Nat) : Prop := hexDigits.idxOf? c.toLower = some value

/-- Four hexadecimal digits write a number. -/
def HexNumber (a b c d : Char) (n : Nat) : Prop :=
  ∃ w x y z, HexDigit a w ∧ HexDigit b x ∧ HexDigit c y ∧ HexDigit d z ∧
    n = ((w * 16 + x) * 16 + y) * 16 + z

/-- What stands between the quotes of a string literal, and the text that it denotes. -/
inductive Unescapes : List Char → List Char → Prop
  /-- Nothing. -/
  | nil : Unescapes [] []
  /-- A character that stands for itself. -/
  | plain {c : Char} {body text : List Char} (quote : c ≠ '"') (backslash : c ≠ '\\')
    (visible : 0x20 ≤ c.toNat) (rest : Unescapes body text) : Unescapes (c :: body) (c :: text)
  /-- A short escape. -/
  | short {e c : Char} {body text : List Char} (listed : (e, c) ∈ shortEscapes)
    (rest : Unescapes body text) : Unescapes ('\\' :: e :: body) (c :: text)
  /-- The number of a character. -/
  | number {a b c d : Char} {n : Nat} {body text : List Char} (digits : HexNumber a b c d n)
    (whole : n < 0xd800 ∨ 0xdfff < n) (rest : Unescapes body text) :
    Unescapes ('\\' :: 'u' :: a :: b :: c :: d :: body) (Char.ofNat n :: text)
  /-- The numbers of the two halves of a character beyond 16 bits. -/
  | halves {a b c d a' b' c' d' : Char} {high low : Nat} {body text : List Char}
    (first : HexNumber a b c d high) (second : HexNumber a' b' c' d' low)
    (leading : 0xd800 ≤ high ∧ high ≤ 0xdbff) (trailing : 0xdc00 ≤ low ∧ low ≤ 0xdfff)
    (rest : Unescapes body text) :
    Unescapes
      ('\\' :: 'u' :: a :: b :: c :: d :: '\\' :: 'u' :: a' :: b' :: c' :: d' :: body)
      (Char.ofNat (0x10000 + (high - 0xd800) * 0x400 + (low - 0xdc00)) :: text)

/-- A text is a string literal with white space around it, and this is its unescaped text. -/
def Denotes (text content : String) : Prop :=
  ∃ before body after, (∀ c ∈ before, isSpace c = true) ∧ (∀ c ∈ after, isSpace c = true) ∧
    text.toList = before ++ '"' :: (body ++ '"' :: after) ∧ Unescapes body content.toList

/-! ## Escapes -/

/-- The reader knows exactly the short escapes. -/
theorem shortEscape_eq_some_iff {e c : Char} :
    shortEscape e = some c ↔ (e, c) ∈ shortEscapes := by
  constructor
  · intro read
    unfold shortEscape at read
    split at read
    · next itself =>
      cases read
      rcases itself with rfl | rfl | rfl <;> decide
    split at read
    · next same => cases read; cases same; decide
    split at read
    · next same => cases read; cases same; decide
    split at read
    · next same => cases read; cases same; decide
    split at read
    · next same => cases read; cases same; decide
    split at read
    · next same => cases read; cases same; decide
    · cases read
  · intro listed
    have all : shortEscapes.all (fun p => shortEscape p.1 = some p.2) = true := by decide
    exact of_decide_eq_true (List.all_eq_true.mp all (e, c) listed)

private theorem hexValue_ascii : ∀ n < 128,
    hexValue (Char.ofNat n) = hexDigits.idxOf? (Char.ofNat n).toLower := by
  decide

/-- The value of a digit is its place among the digits. -/
theorem hexValue_eq_some_iff {c : Char} {value : Nat} :
    hexValue c = some value ↔ HexDigit c value := by
  suffices hexValue c = hexDigits.idxOf? c.toLower by rw [this, HexDigit]
  by_cases ascii : c.toNat < 128
  · have same := hexValue_ascii c.toNat ascii
    rwa [Char.ofNat_toNat] at same
  · -- Beyond ASCII there is no digit, and no letter that has a lower case.
    have digits : hexDigits.all (·.toNat < 128) = true := by decide
    have lower : c.toLower = c := by
      rcases Text.toLower_cases c with same | ⟨upper, -⟩
      · exact same
      · have := Text.isUpper_iff.mp upper
        omega
    have unlisted : c ∉ hexDigits := fun member =>
      ascii (of_decide_eq_true (List.all_eq_true.mp digits c member))
    have beyond (d : Char) (small : d.toNat < 128) : ¬ c ≤ d := fun le =>
      ascii (Nat.lt_of_le_of_lt (UInt32.le_iff_toNat_le.mp le) small)
    rw [lower, List.idxOf?_eq_none_iff.mpr unlisted, hexValue,
      if_neg fun range => beyond '9' (by decide) range.2,
      if_neg fun range => beyond 'f' (by decide) range.2,
      if_neg fun range => beyond 'F' (by decide) range.2]

theorem hexQuad_eq_some_iff {a b c d : Char} {n : Nat} :
    hexQuad a b c d = some n ↔ HexNumber a b c d n := by
  simp only [hexQuad, HexNumber, ← hexValue_eq_some_iff]
  constructor
  · intro read
    obtain ⟨w, first, read⟩ := Option.bind_eq_some_iff.mp read
    obtain ⟨x, second, read⟩ := Option.bind_eq_some_iff.mp read
    obtain ⟨y, third, read⟩ := Option.bind_eq_some_iff.mp read
    obtain ⟨z, fourth, read⟩ := Option.bind_eq_some_iff.mp read
    cases read
    exact ⟨w, x, y, z, first, second, third, fourth, rfl⟩
  · rintro ⟨w, x, y, z, first, second, third, fourth, rfl⟩
    rw [first, second, third, fourth]
    rfl

/-! ## Units -/

/-- What stands between the quotes of a string literal, read unit by unit. -/
inductive Spells : List Char → List Unit16 → Prop
  /-- Nothing. -/
  | nil : Spells [] []
  /-- A character that stands for itself. -/
  | plain {c : Char} {body : List Char} {units : List Unit16} (quote : c ≠ '"')
    (backslash : c ≠ '\\') (visible : 0x20 ≤ c.toNat) (rest : Spells body units) :
    Spells (c :: body) (.char c :: units)
  /-- A short escape. -/
  | short {e c : Char} {body : List Char} {units : List Unit16} (read : shortEscape e = some c)
    (rest : Spells body units) : Spells ('\\' :: e :: body) (.char c :: units)
  /-- A number. -/
  | number {a b c d : Char} {n : Nat} {body : List Char} {units : List Unit16}
    (read : hexQuad a b c d = some n) (rest : Spells body units) :
    Spells ('\\' :: 'u' :: a :: b :: c :: d :: body) (.escaped n :: units)

variable {body rest cs text : List Char} {units : List Unit16}

/-- Units are read up to the closing quote. -/
theorem readUnits_of_spells (spells : Spells body units) (rest : List Char) :
    readUnits (body ++ '"' :: rest) = some (units, rest) := by
  induction spells with
  | nil => simp [readUnits]
  | plain quote backslash visible _ ih =>
    rw [List.cons_append, readUnits_plain quote backslash (Nat.not_lt.mpr visible), ih]
    rfl
  | short read _ ih =>
    rw [List.cons_append, List.cons_append, readUnits_escape read, ih]
    rfl
  | number read _ ih =>
    simp only [List.cons_append]
    rw [readUnits_number read, ih]
    rfl

/-- What is read stands before the first quote that closes. -/
theorem spells_of_readUnits (read : readUnits cs = some (units, rest)) :
    ∃ body, Spells body units ∧ cs = body ++ '"' :: rest := by
  fun_induction readUnits cs generalizing units with
  | case1 => cases read
  | case2 => cases read; exact ⟨[], .nil, rfl⟩
  | case3 a b c d after ih =>
    obtain ⟨n, number, read⟩ := Option.bind_eq_some_iff.mp read
    obtain ⟨⟨others, tail⟩, later, read⟩ := Option.bind_eq_some_iff.mp read
    cases read
    obtain ⟨body, spells, rfl⟩ := ih later
    exact ⟨_, .number number spells, rfl⟩
  | case4 e after _ ih =>
    obtain ⟨c, escape, read⟩ := Option.bind_eq_some_iff.mp read
    obtain ⟨⟨others, tail⟩, later, read⟩ := Option.bind_eq_some_iff.mp read
    cases read
    obtain ⟨body, spells, rfl⟩ := ih later
    exact ⟨_, .short escape spells, rfl⟩
  | case5 => cases read
  | case6 c after quote _ _ raw ih =>
    obtain ⟨⟨others, tail⟩, later, read⟩ := Option.bind_eq_some_iff.mp read
    cases read
    obtain ⟨body, spells, rfl⟩ := ih later
    rw [Bool.or_eq_true, decide_eq_true_eq, decide_eq_true_eq, not_or] at raw
    exact ⟨_, .plain quote raw.2 (Nat.not_lt.mp raw.1) spells, rfl⟩

/-- The text of the units is the unescaped text. -/
theorem unescapes_of_spells (spells : Spells body units) (denoted : unitsText units = some text) :
    Unescapes body text := by
  fun_induction unitsText units generalizing body text with
  | case1 =>
    cases denoted
    cases spells
    exact .nil
  | case2 c units ih =>
    obtain ⟨others, later, rfl⟩ := Option.map_eq_some_iff.mp denoted
    cases spells with
    | plain quote backslash visible rest => exact .plain quote backslash visible (ih rest later)
    | short read rest => exact .short (shortEscape_eq_some_iff.mp read) (ih rest later)
  | case4 high _ leading low units trailing ih =>
    obtain ⟨others, later, rfl⟩ := Option.map_eq_some_iff.mp denoted
    cases spells with
    | number first spells =>
      cases spells with
      | number second rest =>
        exact .halves (hexQuad_eq_some_iff.mp first) (hexQuad_eq_some_iff.mp second) leading
          trailing (ih rest later)
  | case7 n units trailing leading ih =>
    obtain ⟨others, later, rfl⟩ := Option.map_eq_some_iff.mp denoted
    cases spells with
    | number read rest => exact .number (hexQuad_eq_some_iff.mp read) (by omega) (ih rest later)
  | case3 | case5 | case6 => cases denoted

/-- Whatever is unescaped is read as units that denote it. -/
theorem spells_of_unescapes (unescapes : Unescapes body text) :
    ∃ units, Spells body units ∧ unitsText units = some text := by
  induction unescapes with
  | nil => exact ⟨[], .nil, by rw [unitsText]⟩
  | plain quote backslash visible _ ih =>
    obtain ⟨units, spells, denoted⟩ := ih
    exact ⟨_, .plain quote backslash visible spells, by rw [unitsText_char, denoted]; rfl⟩
  | short listed _ ih =>
    obtain ⟨units, spells, denoted⟩ := ih
    exact ⟨_, .short (shortEscape_eq_some_iff.mpr listed) spells,
      by rw [unitsText_char, denoted]; rfl⟩
  | number digits whole _ ih =>
    obtain ⟨units, spells, denoted⟩ := ih
    exact ⟨_, .number (hexQuad_eq_some_iff.mpr digits) spells,
      by rw [unitsText_number whole, denoted]; rfl⟩
  | halves first second leading trailing _ ih =>
    obtain ⟨units, spells, denoted⟩ := ih
    refine ⟨_, .number (hexQuad_eq_some_iff.mpr first)
      (.number (hexQuad_eq_some_iff.mpr second) spells), ?_⟩
    rw [unitsText, if_neg (by omega), if_pos leading, if_pos trailing, denoted]
    rfl

/-- A literal is read up to the quote that closes it, as its unescaped text. -/
theorem readLiteral_eq_some_iff {content : String} :
    readLiteral cs = some (some content, rest) ↔
      ∃ body, Unescapes body content.toList ∧ cs = body ++ '"' :: rest := by
  rw [readLiteral, Option.map_eq_some_iff]
  constructor
  · rintro ⟨⟨units, after⟩, read, same⟩
    obtain ⟨joined, rfl⟩ := Prod.mk.inj same
    obtain ⟨text, denoted, rfl⟩ := Option.map_eq_some_iff.mp joined
    obtain ⟨body, spells, rfl⟩ := spells_of_readUnits read
    exact ⟨body, String.toList_ofList ▸ unescapes_of_spells spells denoted, rfl⟩
  · rintro ⟨body, unescapes, rfl⟩
    obtain ⟨units, spells, denoted⟩ := spells_of_unescapes unescapes
    refine ⟨(units, rest), readUnits_of_spells spells rest, ?_⟩
    simp only [denoted, Option.map_some, String.ofList_toList]

/-! ## Texts that are string literals -/

/-- Only a literal is read as a string. -/
theorem readValue_eq_string_iff {fuel : Nat} {literal : Literal} :
    readValue (fuel + 1) cs = some (.string literal, rest) ↔
      ∃ more, skipSpace cs = '"' :: more ∧ readLiteral more = some (literal, rest) := by
  constructor
  · intro read
    rw [readValue] at read
    split at read
    · cases read
    · cases read
    · cases read
    · next more start =>
      obtain ⟨⟨l, after⟩, literal, same⟩ := Option.map_eq_some_iff.mp read
      cases same
      exact ⟨more, start, literal⟩
    · split at read
      · cases read
      · obtain ⟨_, _, same⟩ := Option.map_eq_some_iff.mp read
        cases same
    · split at read
      · cases read
      · obtain ⟨_, _, same⟩ := Option.map_eq_some_iff.mp read
        cases same
    · obtain ⟨_, _, same⟩ := Option.map_eq_some_iff.mp read
      cases same
  · rintro ⟨more, start, read⟩
    rw [readValue, start]
    simp [read]

/-- What is left without the white space in front starts with a given character. -/
theorem skipSpace_eq_cons_iff {c : Char} (solid : isSpace c = false) {more : List Char} :
    skipSpace cs = c :: more ↔
      ∃ before, (∀ d ∈ before, isSpace d = true) ∧ cs = before ++ c :: more := by
  constructor
  · intro start
    refine ⟨cs.takeWhile isSpace, fun d => List.mem_takeWhile_imp, ?_⟩
    rw [← start, skipSpace, List.takeWhile_append_dropWhile]
  · rintro ⟨before, blank, rfl⟩
    rw [skipSpace, List.dropWhile_append_of_pos blank, List.dropWhile_cons_of_neg (by simp [solid])]

/-- What is read as a text is a literal with white space in front, up to its closing quote. -/
theorem readValue_eq_text_iff {fuel : Nat} {content : String} :
    readValue (fuel + 1) cs = some (.string (some content), rest) ↔
      ∃ before body, (∀ c ∈ before, isSpace c = true) ∧
        cs = before ++ '"' :: (body ++ '"' :: rest) ∧ Unescapes body content.toList := by
  rw [readValue_eq_string_iff]
  simp only [skipSpace_eq_cons_iff (c := '"') (by decide), readLiteral_eq_some_iff]
  constructor
  · rintro ⟨_, ⟨before, blank, whole⟩, body, unescapes, rfl⟩
    exact ⟨before, body, blank, whole, unescapes⟩
  · rintro ⟨before, body, blank, whole, unescapes⟩
    exact ⟨_, ⟨before, blank, whole⟩, body, unescapes, rfl⟩

/-- A text is read as a string exactly if it is a literal that denotes it. -/
theorem parse_eq_string_iff {text content : String} :
    parse text = some (.string (some content)) ↔ Denotes text content := by
  have ends {after : List Char} : skipSpace after = [] ↔ ∀ c ∈ after, isSpace c = true :=
    List.dropWhile_eq_nil_iff
  constructor
  · intro read
    obtain ⟨⟨j, after⟩, front, rest⟩ := Option.bind_eq_some_iff.mp read
    obtain ⟨blank, same⟩ := Option.ite_none_right_eq_some.mp rest
    cases same
    obtain ⟨before, body, first, whole, unescapes⟩ := readValue_eq_text_iff.mp front
    exact ⟨before, body, after, first, ends.mp blank, whole, unescapes⟩
  · rintro ⟨before, body, after, first, last, whole, unescapes⟩
    rw [parse]
    dsimp only
    rw [readValue_eq_text_iff.mpr ⟨before, body, first, whole, unescapes⟩]
    exact if_pos (ends.mpr last)

/-- A literal denotes one text. -/
theorem denotes_unique {text a b : String} (first : Denotes text a) (second : Denotes text b) :
    a = b := by
  have same := (parse_eq_string_iff.mpr first).symm.trans (parse_eq_string_iff.mpr second)
  cases same
  rfl

/-- The text of a value is that of a string. -/
theorem toText?_eq_some_iff {j : Json} {content : String} :
    toText? j = some content ↔ j = .string (some content) := by
  constructor
  · intro read
    unfold toText? at read
    split at read
    · rw [read]
    · cases read
  · rintro rfl
    rfl

/-- Exactly the literals are decoded as texts. -/
theorem parse_bind_toText?_eq_some_iff {text content : String} :
    (parse text).bind toText? = some content ↔ Denotes text content := by
  simp only [Option.bind_eq_some_iff, toText?_eq_some_iff, ← parse_eq_string_iff, exists_eq_right]

end EventRelay.Json
