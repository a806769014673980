import EventRelay.Proofs.Text.Ascii
import EventRelay.Proofs.Text.Decimal
import EventRelay.Proofs.Text.Trimming
import EventRelay.Request.Headers

/-!
# The correlation that headers carry

Each field of a correlation is the content of the first value under its name, if that value is text
at all. The five headers are read apart from each other: a turn that is no number, or any header
that is not asked for, leaves the other fields alone. A correlation comes back from the headers that
it is written into.
-/

namespace EventRelay.Request

namespace Headers

/-! ## What one header says -/

/-- The codes of visible ASCII, space and tab. -/
def IsText (n : Nat) : Prop := n = 9 ∨ 32 ≤ n ∧ n ≤ 126

instance (n : Nat) : Decidable (IsText n) := inferInstanceAs (Decidable (_ ∨ _))

/-- Two names differ at most in the case of their letters. -/
def SameName (a b : String) : Prop := a.toList.map Char.toLower = b.toList.map Char.toLower

instance (a b : String) : Decidable (SameName a b) := inferInstanceAs (Decidable (_ = _))

/-- The first value that is stored under a name. -/
def StoredFirst (pairs : List (String × List UInt8)) (name : String) (bytes : List UInt8) : Prop :=
  ∃ before key after, pairs = before ++ (key, bytes) :: after ∧ SameName key name ∧
    ∀ p ∈ before, ¬ SameName p.1 name

/-- The first value under a name is text, and this is its content. -/
def Tells (pairs : List (String × List UInt8)) (name content : String) : Prop :=
  ∃ bytes, StoredFirst pairs name bytes ∧ (∀ b ∈ bytes, IsText b.toNat) ∧
    Text.Content (String.ofList (bytes.map fun b => Char.ofNat b.toNat)) content

theorem fold_eq_iff {a b : String} : fold a = fold b ↔ SameName a b := String.ofList_inj

/-- The case of its letters does not decide whether a name is legal. -/
theorem isNameChar_toLower (c : Char) : isNameChar c.toLower = isNameChar c := by
  rcases Text.toLower_cases c with same | ⟨upper, lower⟩
  · rw [same]
  · have legal (d : Char) (alphanumeric : d.isAlphanum = true) : isNameChar d = true := by
      rw [isNameChar, alphanumeric, Bool.true_or, Bool.true_or]
    rw [legal c (Text.isAlphanum_iff.mpr (.inl (.inl upper))),
      legal c.toLower (Text.isAlphanum_iff.mpr (.inl (.inr lower)))]

theorem isName_of_sameName {a b : String} (same : SameName a b) (legal : isName a = true) :
    isName b = true := by
  have folded (s : String) : isName s = true ↔
      s.toList.map Char.toLower ≠ [] ∧ (s.toList.map Char.toLower).all isNameChar = true := by
    rw [isName, Bool.and_eq_true, decide_eq_true_eq, List.all_map, ne_eq, ne_eq,
      List.map_eq_nil_iff, String.toList_eq_nil_iff,
      show isNameChar ∘ Char.toLower = isNameChar from funext isNameChar_toLower]
  rw [folded, ← show _ = _ from same, ← folded]
  exact legal

variable {pairs : List (String × List UInt8)} {h : Headers} {name : String}

theorem entries_of_ofList? (made : ofList? pairs = some h) :
    h.entries = pairs.map (fun p => (fold p.1, p.2)) ∧ ∀ p ∈ pairs, isName p.1 = true := by
  unfold ofList? at made
  split at made
  · next legal =>
    cases made
    refine ⟨rfl, fun p member => ?_⟩
    have both := List.all_eq_true.mp legal p member
    exact (Bool.and_eq_true_iff.mp both).1
  · cases made

/-- A lookup finds the first value under a name. Under an illegal name nothing is stored. -/
theorem first?_eq_some_iff (made : ofList? pairs = some h) {bytes : List UInt8} :
    h.first? name = some bytes ↔ StoredFirst pairs name bytes := by
  obtain ⟨entries, legal⟩ := entries_of_ofList? made
  have search : (h.entries.find? (·.1 = fold name)).map Prod.snd = some bytes ↔
      StoredFirst pairs name bytes := by
    rw [entries, List.find?_map, Option.map_map, Option.map_eq_some_iff]
    simp only [List.find?_eq_some_iff_append, Function.comp_apply, decide_eq_true_eq, fold_eq_iff,
      Bool.not_eq_true', decide_eq_false_iff_not]
    constructor
    · rintro ⟨⟨key, _⟩, ⟨same, before, after, rfl, others⟩, rfl⟩
      exact ⟨before, key, after, rfl, same, others⟩
    · rintro ⟨before, key, after, rfl, same, others⟩
      exact ⟨(key, bytes), ⟨same, before, after, rfl, others⟩, rfl⟩
  rw [← search, first?]
  split
  · rfl
  · next illegal =>
    constructor
    · rintro ⟨⟩
    · intro found
      obtain ⟨before, key, after, rfl, same, -⟩ := search.mp found
      exact absurd (isName_of_sameName same (legal (key, bytes) (by simp))) illegal

theorem isTextByte_iff (b : UInt8) : isTextByte b = true ↔ IsText b.toNat := by
  simp [isTextByte, IsText, UInt8.le_iff_toNat_le, ← UInt8.toNat_inj]

theorem valueText_eq_some_iff {bytes : List UInt8} {text : String} :
    valueText bytes = some text ↔ (∀ b ∈ bytes, IsText b.toNat) ∧
      text = String.ofList (bytes.map fun b => Char.ofNat b.toNat) := by
  simp only [valueText, Option.ite_none_right_eq_some, List.all_eq_true, isTextByte_iff,
    Option.some.injEq, eq_comm (a := text)]

/-- What is read under a name is what the first value there says. -/
theorem text?_eq_some_iff (made : ofList? pairs = some h) {content : String} :
    h.text? name = some content ↔ Tells pairs name content := by
  rw [text?, Text.filter_trim_eq_some_iff]
  simp only [Option.bind_eq_some_iff, first?_eq_some_iff made, valueText_eq_some_iff]
  constructor
  · rintro ⟨_, ⟨bytes, stored, text, rfl⟩, told⟩
    exact ⟨bytes, stored, text, told⟩
  · rintro ⟨bytes, stored, text, told⟩
    exact ⟨_, ⟨bytes, stored, text, rfl⟩, told⟩

/-! ## The fields of the correlation -/

/-- A number of 64 bits with a sign. -/
def IsInt64 (n : Int) : Prop := Int64.minValue.toInt ≤ n ∧ n ≤ Int64.maxValue.toInt

instance (n : Int) : Decidable (IsInt64 n) := inferInstanceAs (Decidable (_ ∧ _))

theorem readSigned64_eq_ok_iff {cs : List Char} {n : Int} :
    Text.readSigned64 cs = .ok n ↔ Text.Signed cs n ∧ IsInt64 n := by
  rw [Text.readSigned64, Text.readSigned_eq_ok_iff]
  rfl

/-- The turn is the number that its header says. -/
theorem turn_eq_some_iff (names : HeaderNames) {n : Int} :
    (h.extract names).1.turn = some n ↔
      ∃ text, h.text? names.turn = some text ∧ Text.Signed text.toList n ∧ IsInt64 n := by
  simp only [← readSigned64_eq_ok_iff]
  cases text : h.text? names.turn with
  | none => simp [extract, text]
  | some raw => cases read : Text.readSigned64 raw.toList <;> simp [extract, text, read]

/-! ## Headers that a correlation is written into -/

/-- A text that a header carries unchanged. -/
structure Plain (s : String) : Prop where
  nonempty : s ≠ ""
  ends : Text.Trimmed s.toList
  chars : ∀ c ∈ s.toList, IsText c.toNat

/-- A correlation that headers carry unchanged. -/
structure Portable (c : Correlation) : Prop where
  trace : ∀ s ∈ c.trace, Plain s
  user : ∀ s ∈ c.user, Plain s
  dept : ∀ s ∈ c.dept, Plain s
  conversation : ∀ s ∈ c.conversation, Plain s
  turn : ∀ n ∈ c.turn, IsInt64 n

/-- The first value under a name is the given text; without a text nothing has the name. -/
def Shows (pairs : List (String × List UInt8)) (name : String) : Option String → Prop
  | some s => StoredFirst pairs name (Text.utf8Bytes s)
  | none => ∀ p ∈ pairs, ¬ SameName p.1 name

/-- The headers show each field of a correlation under its name. Nothing is said about headers of
other names, or about further values of the same name. -/
structure Renders (names : HeaderNames) (c : Correlation) (pairs : List (String × List UInt8)) :
    Prop where
  trace : Shows pairs names.trace c.trace
  user : Shows pairs names.user c.user
  dept : Shows pairs names.dept c.dept
  conversation : Shows pairs names.conversation c.conversation
  turn : Shows pairs names.turn (c.turn.map toString)

/-- Where no two headers have the same name, every value is the first one under its name. -/
theorem storedFirst_of_mem {bytes : List UInt8} (member : (name, bytes) ∈ pairs)
    (distinct : (pairs.map Prod.fst).Pairwise fun a b => ¬ SameName a b) :
    StoredFirst pairs name bytes := by
  obtain ⟨before, after, rfl⟩ := List.append_of_mem member
  rw [List.map_append, List.pairwise_append] at distinct
  exact ⟨before, name, after, rfl, rfl, fun p earlier =>
    distinct.2.2 p.1 (List.mem_map_of_mem earlier) name List.mem_cons_self⟩

/-- Under a name that no header has, nothing is told. -/
theorem not_tells_of_absent (absent : ∀ p ∈ pairs, ¬ SameName p.1 name) (content : String) :
    ¬ Tells pairs name content := by
  rintro ⟨bytes, ⟨before, key, after, rfl, same, -⟩, -⟩
  exact absent (key, bytes) (by simp) same

/-- A plain text is told as it was written. -/
theorem tells_of_plain {s : String} (plain : Plain s)
    (stored : StoredFirst pairs name (Text.utf8Bytes s)) : Tells pairs name s := by
  have ascii : ∀ c ∈ s.toList, c.toNat ≤ 127 := by
    intro c member
    rcases plain.chars c member with tab | ⟨_, visible⟩ <;> omega
  have bytes := Text.utf8Bytes_of_ascii ascii
  refine ⟨_, stored, ?_, ?_⟩
  · rw [bytes]
    intro b member
    obtain ⟨c, among, rfl⟩ := List.mem_map.mp member
    rw [UInt8.toNat_ofNat_of_lt' (Nat.lt_succ_of_le (Nat.le_trans (ascii c among) (by decide)))]
    exact plain.chars c among
  · have back : (s.toList.map fun c => Char.ofNat (UInt8.ofNat c.toNat).toNat) = s.toList :=
      (List.map_congr_left fun c member => Text.ofNat_toNat_byte (ascii c member)).trans
        (List.map_id _)
    rw [bytes, List.map_map, Function.comp_def, back, String.ofList_toList]
    exact Text.content_self plain.ends plain.nonempty

theorem text?_of_shows (made : ofList? pairs = some h) {text : Option String}
    (plain : ∀ s ∈ text, Plain s) (shown : Shows pairs name text) : h.text? name = text := by
  cases text with
  | none =>
    refine Option.eq_none_iff_forall_ne_some.mpr fun content read => ?_
    exact not_tells_of_absent shown content ((text?_eq_some_iff made).mp read)
  | some s => exact (text?_eq_some_iff made).mpr (tells_of_plain (plain s rfl) shown)

/-- A header carries visible characters unchanged. -/
theorem plain_of_visible {s : String} (nonempty : s ≠ "")
    (visible : ∀ c ∈ s.toList, 33 ≤ c.toNat ∧ c.toNat ≤ 126) : Plain s := by
  have filled : ∀ c ∈ s.toList, Text.isBlank c = false := by
    intro c member
    have := visible c member
    simp [Text.isBlank]
    omega
  refine ⟨nonempty, ⟨?_, ?_⟩, fun c member => ?_⟩
  · exact fun c first => filled c (List.mem_of_mem_head? first)
  · exact fun c last => filled c (List.mem_of_mem_getLast? last)
  · obtain ⟨low, high⟩ := visible c member
    exact .inr ⟨Nat.le_trans (by decide) low, high⟩

theorem visible_of_isDigit {c : Char} (digit : c.isDigit = true) :
    33 ≤ c.toNat ∧ c.toNat ≤ 126 := by
  rw [Char.isDigit, Bool.and_eq_true, decide_eq_true_eq, decide_eq_true_eq] at digit
  exact ⟨Nat.le_trans (by decide) digit.1, Nat.le_trans digit.2 (by decide)⟩

/-- An integer is written in characters that a header carries unchanged. -/
theorem plain_toString (n : Int) : Plain (toString n) := by
  refine plain_of_visible (fun empty => ?_) fun c member => ?_
  · have digits := congrArg String.toList empty
    rw [Text.toList_toString] at digits
    exact Nat.toDigits_ne_nil (List.append_eq_nil_iff.mp digits).2
  · rcases Text.mem_toString member with rfl | digit
    · decide
    · exact visible_of_isDigit digit

/-- A turn is read back from the text that is written for it. -/
theorem turn_of_shows {names : HeaderNames} {turn : Option Int} (range : ∀ n ∈ turn, IsInt64 n)
    (written : h.text? names.turn = turn.map toString) : (h.extract names).1.turn = turn := by
  cases turn with
  | none =>
    refine Option.eq_none_iff_forall_ne_some.mpr fun n read => ?_
    obtain ⟨text, present, -⟩ := (turn_eq_some_iff names).mp read
    rw [written] at present
    cases present
  | some n =>
    exact (turn_eq_some_iff names).mpr ⟨toString n, written, Text.signed_toString n, range n rfl⟩

/-- A correlation comes back from the headers that it is written into. -/
theorem extract_renders (made : ofList? pairs = some h) {names : HeaderNames} {c : Correlation}
    (portable : Portable c) (shown : Renders names c pairs) : (h.extract names).1 = c := by
  have plainTurn : ∀ s ∈ c.turn.map toString, Plain s := by
    intro s member
    obtain ⟨n, -, rfl⟩ := Option.map_eq_some_iff.mp member
    exact plain_toString n
  have turn := turn_of_shows portable.turn (text?_of_shows made plainTurn shown.turn)
  calc (h.extract names).1
      = ⟨h.text? names.trace, h.text? names.user, h.text? names.dept, h.text? names.conversation,
          (h.extract names).1.turn⟩ := rfl
    _ = c := by
      rw [turn, text?_of_shows made portable.trace shown.trace,
        text?_of_shows made portable.user shown.user, text?_of_shows made portable.dept shown.dept,
        text?_of_shows made portable.conversation shown.conversation]

/-- For all headers and all names that are asked for: each text of the correlation is the content of
the first value under its name, if that value is text; the turn is the number that the content of
its header denotes, if it is a signed number of 64 bits. Hence a correlation comes back from headers
that it is written into, whatever else they hold. -/
theorem headers_give_their_correlation (made : ofList? pairs = some h) (names : HeaderNames) :
    (∀ s, (h.extract names).1.trace = some s ↔ Tells pairs names.trace s) ∧
      (∀ s, (h.extract names).1.user = some s ↔ Tells pairs names.user s) ∧
      (∀ s, (h.extract names).1.dept = some s ↔ Tells pairs names.dept s) ∧
      (∀ s, (h.extract names).1.conversation = some s ↔ Tells pairs names.conversation s) ∧
      (∀ n, (h.extract names).1.turn = some n ↔
        ∃ s, Tells pairs names.turn s ∧ Text.Signed s.toList n ∧ IsInt64 n) ∧
      ∀ c, Portable c → Renders names c pairs → (h.extract names).1 = c := by
  refine ⟨fun s => text?_eq_some_iff made, fun s => text?_eq_some_iff made,
    fun s => text?_eq_some_iff made, fun s => text?_eq_some_iff made, fun n => ?_,
    fun c portable shown => extract_renders made portable shown⟩
  simp only [turn_eq_some_iff, text?_eq_some_iff made]

/-- Headers with a trace and the least turn, under names in mixed case and beside other headers. -/
def mixedHeaders : List (String × List UInt8) :=
  [("Accept", [42, 47, 42]), ("X-Trace-Id", Text.utf8Bytes "trace 1"), ("x-trace-id", [98]),
    ("X-TURN-ID", Text.utf8Bytes "-9223372036854775808"), ("X-User", [0xc3, 0xa9])]

/-- The correlation that the mixed headers carry. -/
def mixedCorrelation : Correlation :=
  { trace := some "trace 1", turn := some (-9223372036854775808) }

theorem portable_mixedCorrelation : Portable mixedCorrelation where
  trace := by
    have chars : "trace 1".toList.all (fun c => decide (IsText c.toNat)) = true := by decide
    rintro _ ⟨⟩
    refine ⟨by decide, ⟨?_, ?_⟩, fun c member => ?_⟩
    · rintro _ ⟨⟩
      rfl
    · rintro _ ⟨⟩
      rfl
    · exact of_decide_eq_true (List.all_eq_true.mp chars c member)
  user := by rintro _ ⟨⟩
  dept := by rintro _ ⟨⟩
  conversation := by rintro _ ⟨⟩
  turn := by
    rintro _ ⟨⟩
    decide

theorem renders_mixedHeaders : Renders {} mixedCorrelation mixedHeaders where
  trace := ⟨mixedHeaders.take 1, "X-Trace-Id", mixedHeaders.drop 2, rfl, by decide, by decide⟩
  user := show ∀ p ∈ mixedHeaders, ¬ SameName p.1 "x-user-id" by decide
  dept := show ∀ p ∈ mixedHeaders, ¬ SameName p.1 "x-dept-id" by decide
  conversation := show ∀ p ∈ mixedHeaders, ¬ SameName p.1 "x-conversation-id" by decide
  turn := ⟨mixedHeaders.take 3, "X-TURN-ID", mixedHeaders.drop 4, rfl, by decide, by decide⟩

/-- The first trace and the least turn come back. -/
theorem trace_and_turn_come_back :
    ∃ h, ofList? mixedHeaders = some h ∧ Portable mixedCorrelation ∧
      Renders {} mixedCorrelation mixedHeaders ∧ (h.extract {}).1 = mixedCorrelation := by
  have made : ∃ h, ofList? mixedHeaders = some h :=
    Option.isSome_iff_exists.mp (by decide)
  obtain ⟨h, made⟩ := made
  have fields := headers_give_their_correlation made {}
  exact ⟨h, made, portable_mixedCorrelation, renders_mixedHeaders,
    fields.2.2.2.2.2 _ portable_mixedCorrelation renders_mixedHeaders⟩

end Headers

end EventRelay.Request
