import EventRelay.Payload.Decode
import EventRelay.Proofs.Json.Strings

/-!
# Decoding enforces what building enforces

The labels of a value obey the grammar whatever the value came from, and what is read as a label has
passed the check that makes labels. The numbers are another matter: a score is read past the check
that chunks are made with, and integers are of any size in a text. A value is valid when its scores
are finite numbers of 64 bits and its integers lie within their machine types. Whatever text is
decoded, in whatever form it is written, the value that comes out is valid, because the reader of
numbers refuses what is out of range.
-/

namespace EventRelay

/-! ## Labels -/

namespace Label

/-- A character of the alphabet takes one byte. -/
theorem utf8Size_of_allowed {c : Char} (ok : allowed c = true) : c.utf8Size = 1 := by
  have below (d : Char) (le : c.val ≤ d.val) (ascii : d.val ≤ 127) : c.utf8Size = 1 :=
    Char.utf8Size_eq_one_iff.mpr (UInt32.le_trans le ascii)
  simp only [allowed, Bool.or_eq_true, decide_eq_true_eq] at ok
  rcases ok with ((((plain | rfl) | rfl) | rfl) | rfl) | rfl
  · have plain : ((c.isUpper || c.isLower) || c.isDigit) = true := plain
    rw [Bool.or_eq_true, Bool.or_eq_true] at plain
    obtain (upper | lower) | digit := plain
    · exact below 'Z' (of_decide_eq_true upper).2 (by decide)
    · exact below 'z' (of_decide_eq_true (Bool.and_eq_true_iff.mp lower).2) (by decide)
    · exact below '9' (of_decide_eq_true (Bool.and_eq_true_iff.mp digit).2) (by decide)
  all_goals rfl

theorem byteLength_of_allowed {cs : List Char} (ok : ∀ c ∈ cs, allowed c = true) :
    Text.byteLength cs = cs.length := by
  induction cs with
  | nil => rfl
  | cons c cs ih =>
    rw [Text.byteLength, utf8Size_of_allowed (ok c List.mem_cons_self),
      ih fun d member => ok d (List.mem_cons_of_mem c member), List.length_cons, Nat.add_comm]

/-- The check accepts the text of every label, as this label. -/
theorem ofText_text (l : Label) : ofText l.text = .ok l := by
  obtain ⟨nonempty, fits, letters⟩ := l.valid
  have short : ¬maxLength < Text.byteLength l.text.toList := by
    rw [byteLength_of_allowed letters]
    exact Nat.not_lt.mpr fits
  rw [ofText, dif_neg (List.length_pos_iff.mp nonempty), dif_neg short,
    dif_pos (List.all_eq_true.mpr letters)]

/-- An accepted text is kept as it is. -/
theorem ofText_eq_ok_iff {s : String} {l : Label} : ofText s = .ok l ↔ l.text = s := by
  constructor
  · intro accepted
    unfold ofText at accepted
    split_ifs at accepted
    cases accepted
    rfl
  · rintro rfl
    exact ofText_text l

/-- Exactly the texts that obey the grammar are accepted. -/
theorem exists_ofText_iff {s : String} : (∃ l, ofText s = .ok l) ↔ Valid s := by
  constructor
  · rintro ⟨l, accepted⟩
    rw [← ofText_eq_ok_iff.mp accepted]
    exact l.valid
  · intro valid
    exact ⟨⟨s, valid⟩, ofText_eq_ok_iff.mpr rfl⟩

/-- A label is read from a string that the check accepts, and from nothing else. -/
theorem ofJson?_eq_some_iff {j : Json} {l : Label} :
    ofJson? j = some l ↔ ∃ s, j.toText? = some s ∧ ofText s = .ok l := by
  have accepted (s : String) : (ofText s).toOption = some l ↔ ofText s = .ok l := by
    cases ofText s <;> simp [Except.toOption]
  simp only [ofJson?, Option.bind_eq_some_iff, accepted]

theorem ofJson?_toJson (l : Label) : ofJson? l.toJson = some l :=
  ofJson?_eq_some_iff.mpr ⟨l.text, rfl, l.ofText_text⟩

end Label

/-! ## Valid values -/

/-- The score of a chunk is a finite number of 64 bits. -/
structure RagSource.Valid (s : RagSource) : Prop where
  score : s.score.Representable

/-- The chunks are valid and the number of results fits 32 bits. -/
structure RagInfo.Valid (r : RagInfo) : Prop where
  topK : r.topK ≤ Text.maxU32
  sources : ∀ s ∈ r.sources, s.Valid

/-- The latency fits 64 bits and retrieval is valid where it is present. -/
structure ChatTurn.Valid (p : ChatTurn) : Prop where
  latencyTotal : p.latencyTotal ≤ Text.maxU64
  rag : ∀ r, p.rag = some r → r.Valid

/-- A signed integer of 64 bits. -/
def IsInt64 (i : Int) : Prop := -0x8000000000000000 ≤ i ∧ i ≤ 0x7fffffffffffffff

/-- The turn is a signed integer of 64 bits. -/
structure FeedbackNote.Valid (p : FeedbackNote) : Prop where
  turn : IsInt64 p.turn

/-- The variant is valid; a security block has no numbers. -/
def Payload.Valid : Payload → Prop
  | .chatTurn p => p.Valid
  | .security _ => True
  | .feedback p => p.Valid

/-! ## Labels of values -/

/-- The labels of a chunk. -/
def RagSource.labels (s : RagSource) : List Label := [s.doc, s.chunk]

/-- The labels of a retrieval and its chunks. -/
def RagInfo.labels (r : RagInfo) : List Label := r.retriever :: r.sources.flatMap RagSource.labels

/-- The labels of a chat turn, with those of its optional parts. -/
def ChatTurn.labels (p : ChatTurn) : List Label :=
  [p.intent, p.route, p.domain] ++ p.errorCode.toList ++ p.rag.toList.flatMap RagInfo.labels

/-- The labels of a security block. -/
def SecurityBlock.labels (p : SecurityBlock) : List Label := [p.blockType, p.rule]

/-- The labels of a payload; a feedback has none. -/
def Payload.labels : Payload → List Label
  | .chatTurn p => p.labels
  | .security p => p.labels
  | .feedback _ => []

/-! ## Decoding -/

open Json (exists_part_of_required exists_part_of_optional exists_part_of_toList?)

/-- A label that is read is a string of the value. -/
theorem Label.text_mem_of_ofJson? {j : Json} {l : Label} (read : ofJson? j = some l) :
    l.text ∈ j.texts := by
  obtain ⟨s, string, accepted⟩ := ofJson?_eq_some_iff.mp read
  rw [Json.texts_of_toText? string, ofText_eq_ok_iff.mp accepted]
  exact List.mem_singleton_self s

/-- A label that must be present is a string of the record. -/
theorem Label.text_mem_of_required {names : List String} {j : Json} {fields : Json.Fields}
    {value : Option Json} {l : Label} (read : j.fields? names = some fields)
    (field : value ∈ fields.values) (given : Json.required ofJson? value = some l) :
    l.text ∈ j.texts := by
  obtain ⟨part, inside, label⟩ := exists_part_of_required read field given
  exact inside (text_mem_of_ofJson? label)

/-- What is read as a chunk is valid, and its labels are strings of the value. -/
theorem RagSource.of_ofJson? {j : Json} {s : RagSource} (read : ofJson? j = some s) :
    s.Valid ∧ ∀ l ∈ s.labels, l.text ∈ j.texts := by
  unfold ofJson? at read
  obtain ⟨fields, record, read⟩ := Option.bind_eq_some_iff.mp read
  split at read
  · next found =>
    obtain ⟨doc, hd, read⟩ := Option.bind_eq_some_iff.mp read
    obtain ⟨chunk, hc, read⟩ := Option.bind_eq_some_iff.mp read
    obtain ⟨score, hs, read⟩ := Option.bind_eq_some_iff.mp read
    cases read
    obtain ⟨_, -, number⟩ := exists_part_of_required record (by simp [found]) hs
    refine ⟨{ score := Json.representable_of_toBinary64? number }, ?_⟩
    simp only [labels, List.forall_mem_cons]
    exact ⟨Label.text_mem_of_required record (by simp [found]) hd,
      Label.text_mem_of_required record (by simp [found]) hc, nofun⟩
  · cases read

/-- What is read as retrieval is valid, and its labels are strings of the value. -/
theorem RagInfo.of_ofJson? {j : Json} {r : RagInfo} (read : ofJson? j = some r) :
    r.Valid ∧ ∀ l ∈ r.labels, l.text ∈ j.texts := by
  unfold ofJson? at read
  obtain ⟨fields, record, read⟩ := Option.bind_eq_some_iff.mp read
  split at read
  · next retriever topK list found =>
    obtain ⟨retriever, hr, read⟩ := Option.bind_eq_some_iff.mp read
    obtain ⟨topK, ht, read⟩ := Option.bind_eq_some_iff.mp read
    obtain ⟨sources, hs, read⟩ := Option.bind_eq_some_iff.mp read
    cases read
    have each : ∀ s ∈ sources, s.Valid ∧ ∀ l ∈ s.labels, l.text ∈ j.texts := by
      intro s member
      cases list with
      | none =>
        cases hs
        cases member
      | some items =>
        obtain ⟨part, inside, source⟩ := exists_part_of_toList? hs member
        obtain ⟨valid, strings⟩ := RagSource.of_ofJson? source
        have whole : items.texts ⊆ j.texts := Json.texts_subset_of_fields? record (by simp [found])
        exact ⟨valid, fun l label => whole (inside (strings l label))⟩
    obtain ⟨_, -, number⟩ := exists_part_of_required record (by simp [found]) ht
    refine ⟨{ topK := Json.toNatUpTo?_le number, sources := fun s member => (each s member).1 }, ?_⟩
    intro l label
    rcases List.mem_cons.mp label with rfl | later
    · exact Label.text_mem_of_required record (by simp [found]) hr
    · obtain ⟨s, member, inside⟩ := List.mem_flatMap.mp later
      exact (each s member).2 l inside
  · cases read

/-- What is read as a chat turn is valid, and its labels are strings of the value. -/
theorem ChatTurn.of_ofJson? {j : Json} {p : ChatTurn} (read : ofJson? j = some p) :
    p.Valid ∧ ∀ l ∈ p.labels, l.text ∈ j.texts := by
  unfold ofJson? at read
  obtain ⟨fields, record, read⟩ := Option.bind_eq_some_iff.mp read
  split at read
  · next found =>
    obtain ⟨intent, hi, read⟩ := Option.bind_eq_some_iff.mp read
    obtain ⟨route, hr, read⟩ := Option.bind_eq_some_iff.mp read
    obtain ⟨domain, hd, read⟩ := Option.bind_eq_some_iff.mp read
    obtain ⟨ragUsed, -, read⟩ := Option.bind_eq_some_iff.mp read
    obtain ⟨latency, hl, read⟩ := Option.bind_eq_some_iff.mp read
    obtain ⟨piiInput, -, read⟩ := Option.bind_eq_some_iff.mp read
    obtain ⟨piiOutput, -, read⟩ := Option.bind_eq_some_iff.mp read
    obtain ⟨errorCode, he, read⟩ := Option.bind_eq_some_iff.mp read
    obtain ⟨rag, hg, read⟩ := Option.bind_eq_some_iff.mp read
    cases read
    have retrieval : ∀ r, rag = some r → r.Valid ∧ ∀ l ∈ r.labels, l.text ∈ j.texts := by
      rintro r rfl
      obtain ⟨part, inside, info⟩ := exists_part_of_optional record (by simp [found]) hg
      obtain ⟨valid, strings⟩ := RagInfo.of_ofJson? info
      exact ⟨valid, fun l label => inside (strings l label)⟩
    have code : ∀ l, errorCode = some l → l.text ∈ j.texts := by
      rintro l rfl
      obtain ⟨part, inside, label⟩ := exists_part_of_optional record (by simp [found]) he
      exact inside (Label.text_mem_of_ofJson? label)
    obtain ⟨_, -, number⟩ := exists_part_of_required record (by simp [found]) hl
    refine ⟨{ latencyTotal := Json.toNatUpTo?_le number
              rag := fun r present => (retrieval r present).1 }, ?_⟩
    simp only [labels, List.forall_mem_append, List.forall_mem_cons, Option.mem_toList,
      List.mem_flatMap]
    refine ⟨⟨⟨Label.text_mem_of_required record (by simp [found]) hi,
      Label.text_mem_of_required record (by simp [found]) hr,
      Label.text_mem_of_required record (by simp [found]) hd, nofun⟩, code⟩, ?_⟩
    rintro l ⟨r, present, label⟩
    exact (retrieval r present).2 l label
  · cases read

/-- The labels of what is read as a security block are strings of the value. -/
theorem SecurityBlock.of_ofJson? {j : Json} {p : SecurityBlock} (read : ofJson? j = some p) :
    ∀ l ∈ p.labels, l.text ∈ j.texts := by
  unfold ofJson? at read
  obtain ⟨fields, record, read⟩ := Option.bind_eq_some_iff.mp read
  split at read
  · next found =>
    obtain ⟨blockType, hb, read⟩ := Option.bind_eq_some_iff.mp read
    obtain ⟨blocked, -, read⟩ := Option.bind_eq_some_iff.mp read
    obtain ⟨rule, hr, read⟩ := Option.bind_eq_some_iff.mp read
    cases read
    simp only [labels, List.forall_mem_cons]
    exact ⟨Label.text_mem_of_required record (by simp [found]) hb,
      Label.text_mem_of_required record (by simp [found]) hr, nofun⟩
  · cases read

/-- What is read as a feedback is valid. -/
theorem FeedbackNote.of_ofJson? {j : Json} {p : FeedbackNote} (read : ofJson? j = some p) :
    p.Valid := by
  unfold ofJson? at read
  obtain ⟨fields, record, read⟩ := Option.bind_eq_some_iff.mp read
  split at read
  · next found =>
    obtain ⟨feedback, -, read⟩ := Option.bind_eq_some_iff.mp read
    obtain ⟨conversation, -, read⟩ := Option.bind_eq_some_iff.mp read
    obtain ⟨turn, ht, read⟩ := Option.bind_eq_some_iff.mp read
    cases read
    obtain ⟨_, -, number⟩ := exists_part_of_required record (by simp [found]) ht
    exact { turn := Json.toIntBetween?_bounds number }
  · cases read

/-- A payload that was held first is that of the variant that read it. -/
theorem Payload.of_ofJson? {j : Json} {p : Payload} (read : ofJson? j = some p) :
    p.Valid ∧ ∀ l ∈ p.labels, l.text ∈ j.texts := by
  unfold ofJson? at read
  split at read
  · split at read
    · next turn =>
      cases read
      exact ChatTurn.of_ofJson? turn
    · split at read
      · next block =>
        cases read
        exact ⟨trivial, SecurityBlock.of_ofJson? block⟩
      · obtain ⟨note, found, rfl⟩ := Option.map_eq_some_iff.mp read
        exact ⟨FeedbackNote.of_ofJson? found, nofun⟩
  · cases read

/-- The labels of a value that was read from a text are strings of the text, and each of them passes
the check that makes labels, as itself. -/
def LabelsFrom (text : String) (labels : List Label) : Prop :=
  ∃ j, Json.parse text = some j ∧
    ∀ l ∈ labels, l.text ∈ j.texts ∧ Label.ofText l.text = .ok l

/-- What is decoded from a text was decoded from the value that the text stands for. -/
private theorem of_decode? {α : Type} {f : Json → Option α} {labels : α → List Label} {P : α → Prop}
    (sound : ∀ {j a}, f j = some a → P a ∧ ∀ l ∈ labels a, l.text ∈ j.texts) {text : String} {a : α}
    (read : Json.decode? f text = some a) : P a ∧ LabelsFrom text (labels a) := by
  obtain ⟨j, parsed, read⟩ := Option.bind_eq_some_iff.mp read
  obtain ⟨valid, strings⟩ := sound read
  exact ⟨valid, j, parsed, fun l label => ⟨strings l label, l.ofText_text⟩⟩

/-- Whatever text is decoded as a label, a part of a payload or a payload: the labels of the result
are strings of the text that pass the check, and its numbers are valid. -/
theorem decoded_values_are_valid (text : String) :
    (∀ l, Json.decode? Label.ofJson? text = some l → LabelsFrom text [l]) ∧
    (∀ s, Json.decode? RagSource.ofJson? text = some s → s.Valid ∧ LabelsFrom text s.labels) ∧
    (∀ r, Json.decode? RagInfo.ofJson? text = some r → r.Valid ∧ LabelsFrom text r.labels) ∧
    (∀ p, Json.decode? ChatTurn.ofJson? text = some p → p.Valid ∧ LabelsFrom text p.labels) ∧
    (∀ p, Json.decode? SecurityBlock.ofJson? text = some p → LabelsFrom text p.labels) ∧
    (∀ p, Json.decode? FeedbackNote.ofJson? text = some p → p.Valid) ∧
    (∀ p, Json.decode? Payload.ofJson? text = some p → p.Valid ∧ LabelsFrom text p.labels) := by
  refine ⟨fun l read => ?_, fun s => of_decode? RagSource.of_ofJson?,
    fun r => of_decode? RagInfo.of_ofJson?, fun p => of_decode? ChatTurn.of_ofJson?,
    fun p read => ?_, fun p read => ?_, fun p => of_decode? Payload.of_ofJson?⟩
  · have single {j : Json} {l : Label} (read : Label.ofJson? j = some l) :
        True ∧ ∀ m ∈ [l], m.text ∈ j.texts :=
      ⟨trivial, List.forall_mem_singleton.mpr (Label.text_mem_of_ofJson? read)⟩
    exact (of_decode? single read).2
  · exact (of_decode? (P := fun _ => True) (fun block => ⟨trivial, SecurityBlock.of_ofJson? block⟩)
      read).2
  · obtain ⟨j, -, note⟩ := Option.bind_eq_some_iff.mp read
    exact FeedbackNote.of_ofJson? note

/-- The chunk of a document, with a score of one and a half. -/
def escapedChunk : RagSource where
  doc := ⟨"doc:1", by decide⟩
  chunk := ⟨"c-2", by decide⟩
  score := .finite false 6755399441055744 (-52)

/-- A chunk in array form with an escaped character and a score with a power of ten. -/
theorem decoded_chunk_is_valid :
    Json.decode? RagSource.ofJson? "[\"doc\\u003a1\", \"c-2\", 15e-1]" = some escapedChunk ∧
      escapedChunk.Valid ∧
      LabelsFrom "[\"doc\\u003a1\", \"c-2\", 15e-1]" escapedChunk.labels :=
  have read : Json.decode? RagSource.ofJson? "[\"doc\\u003a1\", \"c-2\", 15e-1]" =
      some escapedChunk := by decide +kernel
  ⟨read, (decoded_values_are_valid _).2.1 _ read⟩

end EventRelay
