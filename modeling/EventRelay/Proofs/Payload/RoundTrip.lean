import EventRelay.Correlation
import EventRelay.Proofs.Payload.Validity

/-!
# Payloads and correlations come back from their text

A valid payload is decoded from its text without its kind being told: fields that are left out are
read as absent, and a variant that is tried too early misses a field that it requires. Only scores
may change, to what the reader of numbers makes of their digits. A correlation comes back as it was.
-/

namespace EventRelay

open Json

/-! ## What scores become -/

/-- The chunk with its score read from the digits it is written in. -/
def RagSource.reread? (s : RagSource) : Option RagSource :=
  (Json.reread? s.score).map fun score => { s with score }

/-- Retrieval with every score read from its digits. -/
def RagInfo.reread? (r : RagInfo) : Option RagInfo :=
  (r.sources.mapM RagSource.reread?).map fun sources => { r with sources }

/-- The chat turn with every score read from its digits. -/
def ChatTurn.reread? (p : ChatTurn) : Option ChatTurn :=
  (p.rag.mapM RagInfo.reread?).map fun rag => { p with rag }

/-- The payload with every score read from its digits. -/
def Payload.reread? : Payload → Option Payload
  | .chatTurn p => p.reread?.map .chatTurn
  | .security p => some (.security p)
  | .feedback p => some (.feedback p)

/-! ## Records -/

namespace Json

/-- A written value is in order, can be held within the given nesting and is read as `a`. -/
structure ReadsAs {α : Type} (f : Json → Option α) (depth : Nat) (j : Json) (a : α) : Prop where
  form : j.WellFormed
  held : holdable depth j = true
  value : f j = some a

theorem wellFormed_record {members : List (String × Json)}
    (each : ∀ m ∈ members, m.2.WellFormed) : (record members).WellFormed := by
  rw [record, WellFormed]
  induction members with
  | nil => exact trivial
  | cons m rest ih =>
    exact ⟨each m List.mem_cons_self, ih fun n later => each n (List.mem_cons_of_mem m later)⟩

theorem holdable_record {depth : Nat} {members : List (String × Json)}
    (each : ∀ m ∈ members, holdable depth m.2 = true) :
    holdable (depth + 1) (record members) = true := by
  rw [record, holdable]
  induction members with
  | nil => rfl
  | cons m rest ih =>
    rw [List.map_cons, holdableMembers, each m List.mem_cons_self,
      ih fun n later => each n (List.mem_cons_of_mem m later)]
    rfl

theorem holdable_ofString (depth : Nat) (s : String) : holdable depth (.ofString s) = true := by
  rw [ofString, holdable]
  rfl

theorem wellFormed_ofString (s : String) : (Json.ofString s).WellFormed := by
  rw [ofString, WellFormed]
  trivial

theorem wellFormed_ofNat (n : Nat) : (Json.ofNat n).WellFormed := by
  rw [ofNat, WellFormed]
  exact Numeral.wellFormed_ofNat n

theorem wellFormed_ofInt (i : Int) : (Json.ofInt i).WellFormed := by
  rw [ofInt, WellFormed]
  exact Numeral.wellFormed_ofInt i

/-- A list that is written item by item is read item by item. -/
theorem readsAs_array {α β : Type} {f : Json → Option β} {g : α → Option β} {w : α → Json}
    {depth : Nat} {as : List α}
    (each : ∀ a ∈ as, ∃ b, g a = some b ∧ ReadsAs f depth (w a) b) :
    ∃ bs, as.mapM g = some bs ∧ ReadsAs (toList? f) (depth + 1) (.array (as.map w)) bs := by
  induction as with
  | nil =>
    refine ⟨[], rfl, ?_, ?_, rfl⟩
    · rw [WellFormed]
      trivial
    · rw [holdable]
      rfl
  | cons a rest ih =>
    obtain ⟨b, first, item⟩ := each a List.mem_cons_self
    obtain ⟨bs, others, list⟩ := ih fun c later => each c (List.mem_cons_of_mem a later)
    have form := list.form
    have held := list.held
    have value := list.value
    rw [WellFormed] at form
    rw [holdable] at held
    rw [toList?] at value
    refine ⟨b :: bs, by rw [List.mapM_cons, first, others]; rfl, ?_, ?_, ?_⟩
    · rw [List.map_cons, WellFormed, WellFormedItems]
      exact ⟨item.form, form⟩
    · rw [List.map_cons, holdable, holdableItems, item.held, held]
      rfl
    · rw [List.map_cons, toList?, List.mapM_cons, item.value, value]
      rfl

end Json

/-! ## Payloads -/

theorem RagSource.readsAs {s : RagSource} (valid : s.Valid) (depth : Nat) :
    ∃ t, s.reread? = some t ∧ ReadsAs RagSource.ofJson? (depth + 1) s.toJson t := by
  obtain ⟨form, held, score, reread, value⟩ := ofBinary64_readable valid.score
  refine ⟨{ s with score }, by rw [RagSource.reread?, reread]; rfl, ?_, ?_, ?_⟩
  · refine wellFormed_record ?_
    simp [Label.toJson, wellFormed_ofString, form]
  · refine holdable_record ?_
    simp [Label.toJson, holdable_ofString, held]
  · rw [RagSource.ofJson?, RagSource.toJson, fields?_record]
    have found : ["docId", "chunkId", "score"].mapM (findField · [("docId", s.doc.toJson),
        ("chunkId", s.chunk.toJson), ("score", .ofBinary64 s.score)]) =
        some [some s.doc.toJson, some s.chunk.toJson, some (.ofBinary64 s.score)] := by
      simp [findField]
    rw [found]
    simp [required, Label.ofJson?_toJson, value]

theorem RagInfo.readsAs {r : RagInfo} (valid : r.Valid) (depth : Nat) :
    ∃ t, r.reread? = some t ∧ ReadsAs RagInfo.ofJson? (depth + 3) r.toJson t := by
  obtain ⟨sources, reread, list⟩ :=
    readsAs_array fun s member => RagSource.readsAs (valid.sources s member) depth
  refine ⟨{ r with sources }, by rw [RagInfo.reread?, reread]; rfl, ?_, ?_, ?_⟩
  · refine wellFormed_record ?_
    simp [Label.toJson, wellFormed_ofString, wellFormed_ofNat, list.form]
  · refine holdable_record ?_
    have small : r.topK ≤ Text.maxU64 := valid.topK.trans (by decide)
    simp [Label.toJson, holdable_ofString, holdable_ofNat _ small, list.held]
  · rw [RagInfo.ofJson?, RagInfo.toJson, fields?_record]
    have found : ["retriever", "topK", "sources"].mapM (findField ·
        [("retriever", r.retriever.toJson), ("topK", .ofNat r.topK),
          ("sources", .array (r.sources.map RagSource.toJson))]) =
        some [some r.retriever.toJson, some (.ofNat r.topK),
          some (.array (r.sources.map RagSource.toJson))] := by
      simp [findField]
    rw [found]
    simp [required, withDefault, Label.ofJson?_toJson, toNatUpTo?_ofNat valid.topK, list.value]

/-- The members of a chat turn are found under their names, and the optional ones only where they
are present. -/
private theorem ChatTurn.fields (p : ChatTurn) :
    p.toJson.fields? ChatTurn.fieldNames = some ⟨.named,
      [some p.intent.toJson, some p.route.toJson, some p.domain.toJson, some (.bool p.ragUsed),
        some (.ofNat p.latencyTotal), some (.bool p.piiInput), some (.bool p.piiOutput),
        p.errorCode.map Label.toJson, p.rag.map RagInfo.toJson]⟩ := by
  rw [ChatTurn.toJson, fields?_record]
  obtain ⟨intent, route, domain, ragUsed, latency, piiInput, piiOutput, errorCode, rag⟩ := p
  rcases errorCode with _ | code <;> rcases rag with _ | info <;>
    simp [ChatTurn.fieldNames, findField, member?]

theorem ChatTurn.readsAs {p : ChatTurn} (valid : p.Valid) (depth : Nat) :
    ∃ t, p.reread? = some t ∧ ReadsAs ChatTurn.ofJson? (depth + 4) p.toJson t := by
  -- the optional parts, present or absent
  obtain ⟨rag, reread, ragForm, ragHeld, ragValue⟩ : ∃ rag : Option RagInfo,
      p.rag.mapM RagInfo.reread? = some rag ∧
      (∀ m ∈ member? "ragInfo" RagInfo.toJson p.rag, m.2.WellFormed) ∧
      (∀ m ∈ member? "ragInfo" RagInfo.toJson p.rag, holdable (depth + 3) m.2 = true) ∧
      optional RagInfo.ofJson? (p.rag.map RagInfo.toJson) = some rag := by
    cases present : p.rag with
    | none => exact ⟨none, rfl, by simp [member?], by simp [member?], rfl⟩
    | some r =>
      obtain ⟨t, reread, reads⟩ := RagInfo.readsAs (valid.rag r present) depth
      refine ⟨some t, by simp [reread], by simpa [member?] using reads.form,
        by simpa [member?] using reads.held, ?_⟩
      change (RagInfo.ofJson? r.toJson).map some = some (some t)
      rw [reads.value]
      rfl
  have errorValue : optional Label.ofJson? (p.errorCode.map Label.toJson) = some p.errorCode := by
    cases present : p.errorCode with
    | none => rfl
    | some l =>
      change (Label.ofJson? l.toJson).map some = some (some l)
      rw [Label.ofJson?_toJson]
      rfl
  have errorForm : ∀ m ∈ member? "errorCode" Label.toJson p.errorCode, m.2.WellFormed := by
    cases p.errorCode <;> simp [member?, Label.toJson, wellFormed_ofString]
  have errorHeld : ∀ m ∈ member? "errorCode" Label.toJson p.errorCode,
      holdable (depth + 3) m.2 = true := by
    cases p.errorCode <;> simp [member?, Label.toJson, holdable_ofString]
  refine ⟨{ p with rag }, by rw [ChatTurn.reread?, reread]; rfl, ?_, ?_, ?_⟩
  · refine wellFormed_record (List.forall_mem_append.mpr
      ⟨List.forall_mem_append.mpr ⟨?_, errorForm⟩, ragForm⟩)
    simp [Label.toJson, wellFormed_ofString, wellFormed_ofNat, WellFormed]
  · refine holdable_record (List.forall_mem_append.mpr
      ⟨List.forall_mem_append.mpr ⟨?_, errorHeld⟩, ragHeld⟩)
    simp [Label.toJson, holdable_ofString, holdable_ofNat _ valid.latencyTotal, holdable]
  · rw [ChatTurn.ofJson?, ChatTurn.fields]
    simp [required, Label.ofJson?_toJson, toBool?, toNatUpTo?_ofNat valid.latencyTotal, errorValue,
      ragValue]

theorem SecurityBlock.readsAs (p : SecurityBlock) (depth : Nat) :
    ReadsAs SecurityBlock.ofJson? (depth + 1) p.toJson p := by
  refine ⟨?_, ?_, ?_⟩
  · refine wellFormed_record ?_
    simp [Label.toJson, wellFormed_ofString, WellFormed]
  · refine holdable_record ?_
    simp [Label.toJson, holdable_ofString, holdable]
  · rw [SecurityBlock.ofJson?, SecurityBlock.toJson, fields?_record]
    have found : ["blockType", "blocked", "ruleId"].mapM (findField ·
        [("blockType", p.blockType.toJson), ("blocked", .bool p.blocked),
          ("ruleId", p.rule.toJson)]) =
        some [some p.blockType.toJson, some (.bool p.blocked), some p.rule.toJson] := by
      simp [findField]
    rw [found]
    simp [required, toBool?, Label.ofJson?_toJson]

theorem FeedbackNote.readsAs {p : FeedbackNote} (valid : p.Valid) (depth : Nat) :
    ReadsAs FeedbackNote.ofJson? (depth + 1) p.toJson p := by
  have small : p.turn.natAbs ≤ Text.maxU64 := by
    have := valid.turn
    unfold IsInt64 at this
    unfold Text.maxU64
    omega
  refine ⟨?_, ?_, ?_⟩
  · refine wellFormed_record ?_
    simp [Feedback.toJson, wellFormed_ofString, wellFormed_ofInt]
  · refine holdable_record ?_
    simp [Feedback.toJson, holdable_ofString, holdable_ofInt _ small]
  · rw [FeedbackNote.ofJson?, FeedbackNote.toJson, fields?_record]
    have found : ["feedback", "targetConversationId", "targetTurnId"].mapM (findField ·
        [("feedback", p.feedback.toJson), ("targetConversationId", .ofString p.conversation),
          ("targetTurnId", .ofInt p.turn)]) =
        some [some p.feedback.toJson, some (.ofString p.conversation), some (.ofInt p.turn)] := by
      simp [findField]
    have word : Feedback.ofJson? p.feedback.toJson = some p.feedback :=
      Feedback.ofWord?_word p.feedback
    have turn : toInt64? (.ofInt p.turn) = some p.turn := toIntBetween?_ofInt valid.turn
    rw [found]
    simp [required, word, turn, ofString, toText?]

/-! ## The first variant that fits -/

/-- A security block has no main intent, so it is no chat turn. -/
private theorem ChatTurn.ofJson?_security (p : SecurityBlock) :
    ChatTurn.ofJson? p.toJson = none := by
  rw [ChatTurn.ofJson?, SecurityBlock.toJson, fields?_record]
  simp [ChatTurn.fieldNames, findField, required]

/-- A feedback has no main intent, so it is no chat turn. -/
private theorem ChatTurn.ofJson?_feedback (p : FeedbackNote) :
    ChatTurn.ofJson? p.toJson = none := by
  rw [ChatTurn.ofJson?, FeedbackNote.toJson, fields?_record]
  simp [ChatTurn.fieldNames, findField, required]

/-- A feedback has no kind of block, so it is no security block. -/
private theorem SecurityBlock.ofJson?_feedback (p : FeedbackNote) :
    SecurityBlock.ofJson? p.toJson = none := by
  rw [SecurityBlock.ofJson?, FeedbackNote.toJson, fields?_record]
  simp [findField, required]

/-- A valid payload is read as the variant that it is. -/
theorem Payload.readsAs {p : Payload} (valid : p.Valid) :
    ∃ q, p.reread? = some q ∧ p.toJson.WellFormed ∧ Payload.ofJson? p.toJson = some q := by
  cases p with
  | chatTurn p =>
    obtain ⟨t, reread, reads⟩ := ChatTurn.readsAs valid 123
    have held : holdable holdDepth p.toJson = true := reads.held
    refine ⟨.chatTurn t, by rw [Payload.reread?, reread]; rfl, reads.form, ?_⟩
    rw [Payload.ofJson?, Payload.toJson, if_pos held, reads.value]
  | security p =>
    have reads := SecurityBlock.readsAs p 126
    have held : holdable holdDepth p.toJson = true := reads.held
    refine ⟨.security p, rfl, reads.form, ?_⟩
    rw [Payload.ofJson?, Payload.toJson, if_pos held, ChatTurn.ofJson?_security, reads.value]
  | feedback p =>
    have reads := FeedbackNote.readsAs valid 126
    have held : holdable holdDepth p.toJson = true := reads.held
    refine ⟨.feedback p, rfl, reads.form, ?_⟩
    rw [Payload.ofJson?, Payload.toJson, if_pos held, ChatTurn.ofJson?_feedback,
      SecurityBlock.ofJson?_feedback, reads.value]
    rfl

/-! ## Correlations -/

/-- The turn, where it is known, is a signed integer of 64 bits. -/
def Correlation.Valid (c : Correlation) : Prop := ∀ i, c.turn = some i → IsInt64 i

theorem Correlation.wellFormed_toJson (c : Correlation) : c.toJson.WellFormed := by
  have text (s : Option String) : (Json.ofOption .ofString s).WellFormed := by
    cases s <;> simp [ofOption, wellFormed_ofString, WellFormed]
  have turn : (Json.ofOption .ofInt c.turn).WellFormed := by
    cases c.turn <;> simp [ofOption, wellFormed_ofInt, WellFormed]
  refine wellFormed_record ?_
  simp [text, turn]

theorem Correlation.ofJson?_toJson {c : Correlation} (valid : c.Valid) :
    Correlation.ofJson? c.toJson = some c := by
  have text (s : Option String) :
      optional toText? (some (Json.ofOption .ofString s)) = some s := by
    cases s <;> rfl
  have turn : optional toInt64? (some (Json.ofOption .ofInt c.turn)) = some c.turn := by
    cases present : c.turn with
    | none => rfl
    | some i =>
      change (toInt64? (.ofInt i)).map some = _
      rw [toInt64?, toIntBetween?_ofInt (valid i present)]
      rfl
  rw [Correlation.ofJson?, Correlation.toJson, fields?_record]
  have found : Correlation.fieldNames.mapM (findField ·
      [("traceId", .ofOption .ofString c.trace), ("userId", .ofOption .ofString c.user),
        ("deptId", .ofOption .ofString c.dept),
        ("conversationId", .ofOption .ofString c.conversation),
        ("turnId", .ofOption .ofInt c.turn)]) =
      some [some (.ofOption .ofString c.trace), some (.ofOption .ofString c.user),
        some (.ofOption .ofString c.dept), some (.ofOption .ofString c.conversation),
        some (.ofOption .ofInt c.turn)] := by
    simp [Correlation.fieldNames, findField]
  rw [found]
  simp [text, turn]

/-! ## Texts -/

/-- The text of a payload is decoded as that payload, with the scores that their digits are read as,
and the text of a correlation as that correlation. -/
theorem encoded_values_decode :
    (∀ p : Payload, p.Valid →
      ∃ q, p.reread? = some q ∧ decode? Payload.ofJson? p.toJson.text = some q) ∧
    (∀ c : Correlation, c.Valid → decode? Correlation.ofJson? c.toJson.text = some c) := by
  refine ⟨fun p valid => ?_, fun c valid => ?_⟩
  · obtain ⟨q, reread, form, value⟩ := Payload.readsAs valid
    exact ⟨q, reread, by rw [decode?_text _ form, value]⟩
  · rw [decode?_text _ c.wellFormed_toJson, Correlation.ofJson?_toJson valid]

/-- A chat turn with the largest latency and a chunk whose score is three tenths. -/
def scoredTurn : Payload :=
  .chatTurn {
    intent := ⟨"qa", by decide⟩, route := ⟨"rag", by decide⟩, domain := ⟨"hr", by decide⟩
    ragUsed := true, latencyTotal := Text.maxU64, piiInput := false, piiOutput := false
    rag := some {
      retriever := ⟨"bm25", by decide⟩, topK := 5
      sources := [⟨⟨"kb:7", by decide⟩, ⟨"p-4", by decide⟩,
        .finite false 5404319552844595 (-54)⟩] } }

/-- A correlation whose texts need escapes, with the least turn. -/
def quotedCorrelation : Correlation where
  trace := some "a\"\\"
  user := some "\n"
  conversation := some ""
  turn := some (-0x8000000000000000)

theorem scored_turn_and_quoted_correlation_decode :
    (∃ q, scoredTurn.reread? = some q ∧
      decode? Payload.ofJson? scoredTurn.toJson.text = some q) ∧
    decode? Correlation.ofJson? quotedCorrelation.toJson.text = some quotedCorrelation := by
  refine ⟨encoded_values_decode.1 scoredTurn ⟨Nat.le_refl _, ?_⟩,
    encoded_values_decode.2 quotedCorrelation ?_⟩
  · rintro r ⟨⟩
    refine ⟨by decide, ?_⟩
    rintro s (_ | ⟨_, ⟨⟩⟩)
    exact ⟨by decide⟩
  · rintro i ⟨⟩
    exact ⟨by decide, by decide⟩

end EventRelay
