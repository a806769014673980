import EventRelay.Guards
import EventRelay.Proofs.Checks
import EventRelay.Proofs.Payload.Validity

/-!
# The payload of a chat turn

What a caller says about a chat turn is checked strictly: each text has to be a label, or there is
no payload. What the retriever reported is taken as far as it goes: a hit that cannot be a source is
left out and leaves its neighbours alone, and without a proper name for the retriever nothing is
taken at all. Whether there is a payload never depends on what was measured.
-/

namespace EventRelay

open Request (Hit Metrics Retrieval)

namespace Label

/-- The empty text is no label. -/
theorem not_valid_empty : ¬ Valid "" := by
  intro valid
  exact absurd valid.1 (by decide)

end Label

namespace Request.Hit

/-- A hit can be a source: its document and its chunk are named by labels, and its score is
finite. -/
structure Usable (h : Hit) : Prop where
  doc : Label.Valid h.doc
  chunk : Label.Valid h.chunk
  score : h.score.isFinite = true

instance (h : Hit) : Decidable h.Usable :=
  decidable_of_iff (Label.Valid h.doc ∧ Label.Valid h.chunk ∧ h.score.isFinite = true)
    ⟨fun ⟨doc, chunk, score⟩ => ⟨doc, chunk, score⟩, fun u => ⟨u.doc, u.chunk, u.score⟩⟩

/-- A source has the values of a hit. -/
structure Gives (h : Hit) (s : RagSource) : Prop where
  doc : s.doc.text = h.doc
  chunk : s.chunk.text = h.chunk
  score : s.score = h.score

/-- The values of a hit determine the source. -/
theorem Gives.unique {h : Hit} {s t : RagSource} (left : h.Gives s) (right : h.Gives t) :
    s = t := by
  obtain ⟨sDoc, sChunk, sScore⟩ := s
  obtain ⟨tDoc, tChunk, tScore⟩ := t
  rw [RagSource.mk.injEq]
  exact ⟨Label.ext (left.doc.trans right.doc.symm), Label.ext (left.chunk.trans right.chunk.symm),
    left.score.trans right.score.symm⟩

end Request.Hit

/-- A retrieval has what was recorded, as far as it can be used: the name of the retriever, the
number asked for and the usable hits in ranking order. -/
structure Request.Retrieval.Gives (r : Retrieval) (info : RagInfo) : Prop where
  retriever : info.retriever.text = r.retriever
  topK : info.topK = r.topK
  sources : List.Forall₂ Hit.Gives (r.hits.filter (·.Usable)) info.sources

/-- What was recorded determines the retrieval. -/
theorem Request.Retrieval.Gives.unique {r : Retrieval} {info other : RagInfo}
    (left : r.Gives info) (right : r.Gives other) : info = other := by
  have single : Relator.RightUnique Hit.Gives := fun _ _ _ => Hit.Gives.unique
  have sources : info.sources = other.sources := single.forall₂ left.sources right.sources
  have retriever := Label.ext (left.retriever.trans right.retriever.symm)
  have topK := left.topK.trans right.topK.symm
  obtain ⟨_, _, _⟩ := info
  obtain ⟨_, _, _⟩ := other
  rw [RagInfo.mk.injEq]
  exact ⟨retriever, topK, sources⟩

namespace Guards

/-! ## Retrieval -/

/-- A hit gives a source exactly if it is usable, and the source has its values. -/
theorem source_eq_ok_iff {h : Hit} {s : RagSource} :
    source h = .ok s ↔ h.Usable ∧ h.Gives s := by
  simp only [source, bind_eq_ok_iff, Label.ofText_eq_ok_iff, RagSource.ofScore]
  constructor
  · rintro ⟨doc, named, chunk, numbered, made⟩
    split at made
    · next score =>
      cases made
      exact ⟨⟨named ▸ doc.valid, numbered ▸ chunk.valid, score⟩, ⟨named, numbered, rfl⟩⟩
    · cases made
  · rintro ⟨usable, gives⟩
    refine ⟨s.doc, gives.doc, s.chunk, gives.chunk, ?_⟩
    rw [if_pos usable.score, ← gives.score]

/-- From a usable hit there is a source. -/
theorem exists_source {h : Hit} (usable : h.Usable) : ∃ s, source h = .ok s :=
  ⟨⟨⟨h.doc, usable.doc⟩, ⟨h.chunk, usable.chunk⟩, h.score⟩,
    source_eq_ok_iff.mpr ⟨usable, rfl, rfl, rfl⟩⟩

/-- The warning about a hit names what is wrong with it. -/
def Explains (h : Hit) (n : Notice) : Prop := ∃ e, source h = .error e ∧ n = .sourceSkipped e

/-- The sources are those of the usable hits, in order, and every other hit is reported once. -/
theorem sources_spec (hits : List Hit) :
    List.Forall₂ Hit.Gives (hits.filter (·.Usable)) (sources hits).1 ∧
      List.Forall₂ Explains (hits.filter (¬ ·.Usable)) (sources hits).2 := by
  induction hits with
  | nil => exact ⟨.nil, .nil⟩
  | cons h rest ih =>
    obtain ⟨good, skipped⟩ := ih
    by_cases usable : h.Usable
    · obtain ⟨s, made⟩ := exists_source usable
      rw [List.filter_cons_of_pos (by simpa using usable),
        List.filter_cons_of_neg (by simpa using usable)]
      simp only [sources, made]
      exact ⟨.cons (source_eq_ok_iff.mp made).2 good, skipped⟩
    · obtain ⟨e, fails⟩ :=
        exists_error_of_ne_ok fun s made => usable (source_eq_ok_iff (s := s).mp made).1
      rw [List.filter_cons_of_neg (by simpa using usable),
        List.filter_cons_of_pos (by simpa using usable)]
      simp only [sources, fails]
      exact ⟨good, .cons ⟨e, fails, rfl⟩ skipped⟩

/-- Where nothing was recorded the retriever has no name, so that it is no label. -/
theorem not_isEmpty_of_valid {r : Retrieval} (valid : Label.Valid r.retriever) :
    r.isEmpty = false := by
  by_contra empty
  rw [Bool.not_eq_false, Retrieval.isEmpty, Bool.and_eq_true, Bool.and_eq_true,
    decide_eq_true_eq] at empty
  rw [empty.1.1] at valid
  exact Label.not_valid_empty valid

/-- A retriever that is named by a label is taken with its usable hits. -/
theorem retrieval_of_valid {r : Retrieval} (valid : Label.Valid r.retriever) :
    retrieval r =
      (some ⟨⟨r.retriever, valid⟩, r.topK, (sources r.hits).1⟩, (sources r.hits).2) := by
  have accepted : Label.ofText r.retriever = .ok ⟨r.retriever, valid⟩ :=
    Label.ofText_eq_ok_iff.mpr rfl
  rw [retrieval, not_isEmpty_of_valid valid, if_neg Bool.false_ne_true]
  simp only [accepted]

/-- Without a proper name nothing is taken; this is reported once if anything was recorded. -/
theorem retrieval_of_not_valid {r : Retrieval} (invalid : ¬ Label.Valid r.retriever) :
    ∃ e, Label.ofText r.retriever = .error e ∧
      retrieval r = (none, if r.isEmpty then [] else [.retrievalDropped e]) := by
  obtain ⟨e, refused⟩ := exists_error_of_ne_ok fun l accepted =>
    invalid (Label.exists_ofText_iff.mp ⟨l, accepted⟩)
  refine ⟨e, refused, ?_⟩
  rw [retrieval]
  cases r.isEmpty with
  | true => rfl
  | false => simp only [refused, Bool.false_eq_true, if_false]

/-- A retrieval is taken exactly if the retriever is a label. -/
theorem exists_retrieval_iff {r : Retrieval} :
    (∃ info, (retrieval r).1 = some info) ↔ Label.Valid r.retriever := by
  constructor
  · rintro ⟨info, taken⟩
    by_contra invalid
    obtain ⟨e, -, dropped⟩ := retrieval_of_not_valid invalid
    rw [dropped] at taken
    cases taken
  · intro valid
    exact ⟨_, by rw [retrieval_of_valid valid]⟩

/-- The retrieval that is taken has what was recorded. -/
theorem retrieval_eq_some_iff {r : Retrieval} {info : RagInfo} :
    (retrieval r).1 = some info ↔ r.Gives info := by
  have taken (valid : Label.Valid r.retriever) :
      ∃ other, (retrieval r).1 = some other ∧ r.Gives other :=
    ⟨_, by rw [retrieval_of_valid valid], rfl, rfl, (sources_spec r.hits).1⟩
  constructor
  · intro own
    obtain ⟨other, same, gives⟩ := taken (exists_retrieval_iff.mp ⟨info, own⟩)
    cases own.symm.trans same
    exact gives
  · intro gives
    obtain ⟨other, same, recorded⟩ := taken (gives.retriever ▸ info.retriever.valid)
    rw [same, recorded.unique gives]

/-- Whatever is reported about a retrieval is a warning. -/
theorem level_of_mem_retrieval {r : Retrieval} {n : Notice} (told : n ∈ (retrieval r).2) :
    n.line.level = .warn := by
  by_cases valid : Label.Valid r.retriever
  · rw [retrieval_of_valid valid] at told
    have skipped := (sources_spec r.hits).2
    generalize (sources r.hits).2 = notices at told skipped
    generalize r.hits.filter (¬ ·.Usable) = useless at skipped
    induction skipped with
    | nil => cases told
    | cons explains _ ih =>
      rcases List.mem_cons.mp told with rfl | later
      · obtain ⟨e, _, rfl⟩ := explains
        rfl
      · exact ih later
  · obtain ⟨e, _, same⟩ := retrieval_of_not_valid valid
    rw [same] at told
    split at told
    · cases told
    · rw [List.mem_singleton.mp told]
      rfl

/-! ## The texts of a caller -/

/-- Every text that a caller says about a chat turn is a label. -/
structure ChatFields.Labelled (f : ChatFields) : Prop where
  intent : Label.Valid f.intent
  route : Label.Valid f.route
  domain : Label.Valid f.domain
  errorCode : ∀ code, f.errorCode = some code → Label.Valid code

/-- A chat turn has the values of a caller. -/
structure ChatFields.Gives (f : ChatFields) (t : ChatTurn) : Prop where
  intent : t.intent.text = f.intent
  route : t.route.text = f.route
  domain : t.domain.text = f.domain
  ragUsed : t.ragUsed = f.ragUsed
  piiInput : t.piiInput = f.piiInput
  piiOutput : t.piiOutput = f.piiOutput
  errorCode : t.errorCode.map Label.text = f.errorCode

/-- The texts of a caller that a chat turn has are labels. -/
theorem ChatFields.Gives.labelled {f : ChatFields} {t : ChatTurn} (gives : f.Gives t) :
    f.Labelled where
  intent := gives.intent ▸ t.intent.valid
  route := gives.route ▸ t.route.valid
  domain := gives.domain ▸ t.domain.valid
  errorCode := by
    intro code present
    rw [← gives.errorCode, Option.map_eq_some_iff] at present
    obtain ⟨l, -, rfl⟩ := present
    exact l.valid

/-- The chat turn that is made has the values of the caller, the latency and the retrieval. -/
theorem ChatFields.payload_eq_ok_iff {f : ChatFields} {latency : Nat} {rag : Option RagInfo}
    {t : ChatTurn} :
    f.payload latency rag = .ok t ↔ f.Gives t ∧ t.latencyTotal = latency ∧ t.rag = rag := by
  have whole (gives : f.Gives t) : t = ⟨t.intent, t.route, t.domain, f.ragUsed, t.latencyTotal,
      f.piiInput, f.piiOutput, t.errorCode, t.rag⟩ := by
    rw [← gives.ragUsed, ← gives.piiInput, ← gives.piiOutput]
  -- The class of the error is taken by cases, since its check is skipped where there is none.
  obtain ⟨intent, route, domain, ragUsed, piiInput, piiOutput, errorCode⟩ := f
  cases errorCode with
  | none =>
    simp only [payload, bind_eq_ok_iff, Label.ofText_eq_ok_iff]
    constructor
    · rintro ⟨_, intent, _, route, _, domain, _, ⟨⟩, ⟨⟩⟩
      exact ⟨⟨intent, route, domain, rfl, rfl, rfl, rfl⟩, rfl, rfl⟩
    · rintro ⟨gives, rfl, rfl⟩
      have absent : t.errorCode = none := Option.map_eq_none_iff.mp gives.errorCode
      exact ⟨_, gives.intent, _, gives.route, _, gives.domain, _, congrArg _ absent.symm,
        congrArg _ (whole gives).symm⟩
  | some code =>
    simp only [payload, bind_eq_ok_iff, Label.ofText_eq_ok_iff, map_eq_ok_iff]
    constructor
    · rintro ⟨_, intent, _, route, _, domain, _, ⟨l, errorCode, rfl⟩, ⟨⟩⟩
      exact ⟨⟨intent, route, domain, rfl, rfl, rfl, congrArg some errorCode⟩, rfl, rfl⟩
    · rintro ⟨gives, rfl, rfl⟩
      obtain ⟨l, present, named⟩ := Option.map_eq_some_iff.mp gives.errorCode
      exact ⟨_, gives.intent, _, gives.route, _, gives.domain, _, ⟨l, named, present.symm⟩,
        congrArg _ (whole gives).symm⟩

/-- There is a chat turn exactly if every text of the caller is a label. -/
theorem ChatFields.exists_payload_iff (f : ChatFields) (latency : Nat) (rag : Option RagInfo) :
    (∃ t, f.payload latency rag = .ok t) ↔ f.Labelled := by
  constructor
  · rintro ⟨t, made⟩
    exact (payload_eq_ok_iff.mp made).1.labelled
  · intro labelled
    obtain ⟨code, checked⟩ : ∃ code : Option Label, code.map Label.text = f.errorCode := by
      cases present : f.errorCode with
      | none => exact ⟨none, rfl⟩
      | some text => exact ⟨some ⟨text, labelled.errorCode text present⟩, rfl⟩
    exact ⟨⟨⟨f.intent, labelled.intent⟩, ⟨f.route, labelled.route⟩, ⟨f.domain, labelled.domain⟩,
      f.ragUsed, latency, f.piiInput, f.piiOutput, code, rag⟩,
      payload_eq_ok_iff.mpr ⟨⟨rfl, rfl, rfl, rfl, rfl, rfl, checked⟩, rfl, rfl⟩⟩

/-- The payload is the chat turn of the caller, with the retrieval as far as it was taken. -/
theorem chatPayload_eq_ok_iff {f : ChatFields} {m : Metrics} {p : Payload} :
    (chatPayload f m).1 = .ok p ↔ ∃ t, p = .chatTurn t ∧ f.Gives t ∧
      t.latencyTotal = m.latency.total ∧ t.rag = (retrieval m.retrieval).1 := by
  simp only [chatPayload, map_eq_ok_iff, ChatFields.payload_eq_ok_iff]
  constructor
  · rintro ⟨t, made, rfl⟩
    exact ⟨t, rfl, made⟩
  · rintro ⟨t, rfl, made⟩
    exact ⟨t, made, rfl⟩

/-- There is a payload exactly if every text of the caller is a label, whatever was measured. -/
theorem exists_chatPayload_iff {f : ChatFields} {m : Metrics} :
    (∃ p, (chatPayload f m).1 = .ok p) ↔ f.Labelled := by
  rw [← ChatFields.exists_payload_iff f m.latency.total (retrieval m.retrieval).1]
  simp only [chatPayload, map_eq_ok_iff]
  constructor
  · rintro ⟨_, t, made, -⟩
    exact ⟨t, made⟩
  · rintro ⟨t, made⟩
    exact ⟨_, t, made, rfl⟩

/-- The payload of a chat turn for every caller and all metrics. There is one exactly if the caller
names labels, and it has the values of the caller and the total latency. It carries a retrieval
exactly if the retriever is a label, with the number asked for and the usable hits in ranking order.
Each hit that is left out is warned about once; where the retriever is no label there is one
warning, or none if nothing was recorded. -/
theorem chat_turn_takes_what_is_usable (f : ChatFields) (m : Metrics) :
    ((∃ p, (chatPayload f m).1 = .ok p) ↔ f.Labelled) ∧
      (∀ p, (chatPayload f m).1 = .ok p →
        ∃ t, p = .chatTurn t ∧ f.Gives t ∧ t.latencyTotal = m.latency.total ∧
          ((∃ info, t.rag = some info) ↔ Label.Valid m.retrieval.retriever) ∧
          ∀ info, t.rag = some info ↔ m.retrieval.Gives info) ∧
      (Label.Valid m.retrieval.retriever →
        List.Forall₂ Explains (m.retrieval.hits.filter (¬ ·.Usable)) (chatPayload f m).2) ∧
      (¬ Label.Valid m.retrieval.retriever →
        ∃ e, Label.ofText m.retrieval.retriever = .error e ∧
          (chatPayload f m).2 =
            if m.retrieval.isEmpty then [] else [.retrievalDropped e]) ∧
      ∀ n ∈ (chatPayload f m).2, n.line.level = .warn := by
  have notices : (chatPayload f m).2 = (retrieval m.retrieval).2 := rfl
  refine ⟨exists_chatPayload_iff, ?_, ?_, ?_, ?_⟩
  · intro p made
    obtain ⟨t, rfl, gives, latency, rag⟩ := chatPayload_eq_ok_iff.mp made
    refine ⟨t, rfl, gives, latency, ?_, fun info => ?_⟩
    · rw [rag]
      exact exists_retrieval_iff
    · rw [rag]
      exact retrieval_eq_some_iff
  · intro valid
    rw [notices, retrieval_of_valid valid]
    exact (sources_spec m.retrieval.hits).2
  · intro invalid
    obtain ⟨e, refused, dropped⟩ := retrieval_of_not_valid invalid
    rw [notices, dropped]
    exact ⟨e, refused, rfl⟩
  · intro n told
    exact level_of_mem_retrieval (notices ▸ told)

end Guards

end EventRelay
