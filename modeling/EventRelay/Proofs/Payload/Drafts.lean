import EventRelay.Payload.Draft
import EventRelay.Proofs.Relay.Outcomes

/-!
# What is built from drafts

A payload has what its draft says, or the draft is refused with the first of its faults in the order
of the fields. Then come the faults of the correlation: the names of what the kind of event needs
and the correlation lacks. Several drafts are built with consecutive serial numbers, and they are
refused with the first fault of the first draft that has one.
-/

namespace EventRelay

variable {e : EventError}

/-! ## Payloads -/

/-- A word for feedback is read without blanks around it and in lower case. -/
theorem Feedback.ofText_eq_ok_iff {s : String} {f : Feedback} :
    Feedback.ofText s = .ok f ↔ Feedback.lower (Text.trim s) = f.word := by
  rw [ofText]
  generalize lower (Text.trim s) = word
  constructor
  · intro read
    split at read
    · next g found =>
      cases read
      have same := List.find?_some found
      exact (of_decide_eq_true same).symm
    · cases read
  · rintro rfl
    simp only [ofWord?_word]

/-- A chunk has what its draft says, and its score is finite. -/
structure SourceDraft.Gives (d : SourceDraft) (s : RagSource) : Prop where
  doc : s.doc.text = d.doc
  chunk : s.chunk.text = d.chunk
  score : s.score = d.score
  finite : d.score.isFinite = true

/-- Retrieval has what its draft says. -/
structure RagDraft.Gives (d : RagDraft) (r : RagInfo) : Prop where
  retriever : r.retriever.text = d.retriever
  topK : r.topK = d.topK
  sources : List.Forall₂ SourceDraft.Gives d.sources r.sources

/-- A payload has what its draft says. -/
inductive PayloadDraft.Gives : PayloadDraft → Payload → Prop
  /-- A chat turn. -/
  | chatTurn {intent route domain : Label} {ragUsed piiInput piiOutput : Bool} {latency : Nat}
    {errorCode : Option Label} {rag : Option RagDraft} {info : Option RagInfo}
    (retrieved : Option.Rel RagDraft.Gives rag info) :
    Gives (.chatTurn intent.text route.text domain.text ragUsed latency piiInput piiOutput
        (errorCode.map Label.text) rag)
      (.chatTurn ⟨intent, route, domain, ragUsed, latency, piiInput, piiOutput, errorCode, info⟩)
  /-- A security block. -/
  | security {blockType rule : Label} {blocked : Bool} :
    Gives (.security blockType.text rule.text blocked) (.security ⟨blockType, blocked, rule⟩)
  /-- A feedback. -/
  | feedback {value conversation : String} {feedback : Feedback} {turn : Int}
    (word : Feedback.lower (Text.trim value) = feedback.word) :
    Gives (.feedback value conversation turn) (.feedback ⟨feedback, conversation, turn⟩)

theorem SourceDraft.check_eq_ok_iff {d : SourceDraft} {s : RagSource} :
    d.check = .ok s ↔ d.Gives s := by
  simp only [check, bind_eq_ok_iff, Label.ofText_eq_ok_iff, RagSource.ofScore]
  constructor
  · rintro ⟨doc, docText, chunk, chunkText, made⟩
    split at made
    · next finite =>
      cases made
      exact ⟨docText, chunkText, rfl, finite⟩
    · cases made
  · rintro ⟨doc, chunk, score, finite⟩
    refine ⟨s.doc, doc, s.chunk, chunk, ?_⟩
    rw [if_pos finite, ← score]

/-- A list is checked item by item. -/
theorem mapM_eq_ok_iff {α β ε : Type} {f : α → Except ε β} {R : α → β → Prop}
    (each : ∀ a b, f a = .ok b ↔ R a b) {as : List α} {bs : List β} :
    as.mapM f = .ok bs ↔ List.Forall₂ R as bs := by
  induction as generalizing bs with
  | nil =>
    constructor
    · rintro ⟨⟩
      exact .nil
    · rintro ⟨⟩
      rfl
  | cons a as ih =>
    simp only [List.mapM_cons, bind_eq_ok_iff, each]
    constructor
    · rintro ⟨b, first, rest, made, ⟨⟩⟩
      exact .cons first (ih.mp made)
    · rintro (_ | ⟨first, rest⟩)
      exact ⟨_, first, _, ih.mpr rest, rfl⟩

theorem RagDraft.check_eq_ok_iff {d : RagDraft} {r : RagInfo} : d.check = .ok r ↔ d.Gives r := by
  simp only [check, bind_eq_ok_iff, Label.ofText_eq_ok_iff,
    mapM_eq_ok_iff fun _ _ => SourceDraft.check_eq_ok_iff]
  constructor
  · rintro ⟨retriever, text, sources, made, ⟨⟩⟩
    exact ⟨text, rfl, made⟩
  · rintro ⟨retriever, topK, sources⟩
    exact ⟨r.retriever, retriever, r.sources, sources, by rw [← topK]; rfl⟩

theorem checkOption_eq_ok_iff {α β ε : Type} {f : α → Except ε β} {R : α → β → Prop}
    (each : ∀ a b, f a = .ok b ↔ R a b) {a : Option α} {b : Option β} :
    checkOption f a = .ok b ↔ Option.Rel R a b := by
  cases a with
  | none =>
    constructor
    · rintro ⟨⟩
      exact .none
    · rintro ⟨⟩
      rfl
  | some a =>
    simp only [checkOption, map_eq_ok_iff, each]
    constructor
    · rintro ⟨b, made, rfl⟩
      exact .some made
    · rintro (made | _)
      exact ⟨_, made, rfl⟩

theorem checkOption_label_eq_ok_iff {a : Option String} {b : Option Label} :
    checkOption Label.ofText a = .ok b ↔ b.map Label.text = a := by
  rw [checkOption_eq_ok_iff fun _ _ => Label.ofText_eq_ok_iff]
  cases a <;> cases b <;> simp

/-- A draft is accepted exactly as the payload that has what it says. -/
theorem PayloadDraft.check_eq_ok_iff {d : PayloadDraft} {p : Payload} :
    d.check = .ok p ↔ d.Gives p := by
  cases d with
  | chatTurn intent route domain ragUsed latency piiInput piiOutput errorCode rag =>
    simp only [check, bind_eq_ok_iff, Label.ofText_eq_ok_iff, checkOption_label_eq_ok_iff,
      checkOption_eq_ok_iff fun _ _ => RagDraft.check_eq_ok_iff]
    constructor
    · rintro ⟨_, rfl, _, rfl, _, rfl, _, rfl, _, retrieved, ⟨⟩⟩
      exact .chatTurn retrieved
    · rintro ⟨retrieved⟩
      exact ⟨_, rfl, _, rfl, _, rfl, _, rfl, _, retrieved, rfl⟩
  | security blockType rule blocked =>
    simp only [check, bind_eq_ok_iff, Label.ofText_eq_ok_iff]
    constructor
    · rintro ⟨_, rfl, _, rfl, ⟨⟩⟩
      exact .security
    · rintro ⟨⟩
      exact ⟨_, rfl, _, rfl, rfl⟩
  | feedback value conversation turn =>
    simp only [check, bind_eq_ok_iff, Feedback.ofText_eq_ok_iff]
    constructor
    · rintro ⟨f, word, ⟨⟩⟩
      exact .feedback word
    · intro gives
      cases gives with
      | feedback word => exact ⟨_, word, rfl⟩

/-! ## Faults -/

/-- The faults of a chunk, in order. -/
def SourceDraft.faults (d : SourceDraft) : List EventError :=
  faultOf (Label.ofText d.doc) ++ faultOf (Label.ofText d.chunk) ++
    if d.score.isFinite then [] else [.invalidPayload "score" "score must be finite"]

/-- The faults of a retrieval, in order. -/
def RagDraft.faults (d : RagDraft) : List EventError :=
  faultOf (Label.ofText d.retriever) ++ d.sources.flatMap SourceDraft.faults

/-- The faults of a payload, in order. -/
def PayloadDraft.faults : PayloadDraft → List EventError
  | .chatTurn intent route domain _ _ _ _ errorCode rag =>
    faultOf (Label.ofText intent) ++ faultOf (Label.ofText route) ++
      faultOf (Label.ofText domain) ++ errorCode.elim [] (faultOf <| Label.ofText ·) ++ rag.elim [] RagDraft.faults
  | .security blockType rule _ => faultOf (Label.ofText blockType) ++ faultOf (Label.ofText rule)
  | .feedback value _ _ => faultOf (Feedback.ofText value)

theorem SourceDraft.reports_check (d : SourceDraft) : Reports d.check d.faults := by
  have scored (doc chunk : Label) : Reports (RagSource.ofScore doc chunk d.score)
      (if d.score.isFinite then [] else [.invalidPayload "score" "score must be finite"]) := by
    rw [RagSource.ofScore]
    split
    · exact .ok _
    · exact reports_faultOf (.error _)
  rw [faults, List.append_assoc]
  exact (reports_faultOf _).bind fun doc _ =>
    (reports_faultOf _).bind fun chunk _ => scored doc chunk

theorem RagDraft.reports_check (d : RagDraft) : Reports d.check d.faults :=
  (reports_faultOf _).bind fun _ _ =>
    (Reports.mapM SourceDraft.reports_check d.sources).last

theorem reports_checkOption {α β ε : Type} {f : α → Except ε β} {g : α → List ε}
    (each : ∀ a, Reports (f a) (g a)) (a : Option α) : Reports (checkOption f a) (a.elim [] g) := by
  cases a with
  | none => exact .ok none
  | some a => exact (each a).map

/-- A payload is refused with its first fault. -/
theorem PayloadDraft.reports_check (d : PayloadDraft) : Reports d.check d.faults := by
  have label (s : String) : Reports (Label.ofText s) (faultOf (Label.ofText s)) := reports_faultOf _
  cases d with
  | chatTurn intent route domain ragUsed latency piiInput piiOutput errorCode rag =>
    simp only [check, faults, List.append_assoc]
    exact (label intent).bind fun _ _ => (label route).bind fun _ _ =>
      (label domain).bind fun _ _ => (reports_checkOption label errorCode).bind fun _ _ =>
        (reports_checkOption RagDraft.reports_check rag).last
  | security blockType rule blocked =>
    simp only [check, faults]
    exact (label blockType).bind fun _ _ => (label rule).last
  | feedback value conversation turn =>
    simp only [check, faults]
    exact (reports_faultOf _).last

/-! ## Events -/

/-- The name of a text that is absent or empty. -/
def Correlation.lack (field : String) (value : Option String) : List String :=
  if value.getD "" = "" then [field] else []

/-- The names of what every event needs and the correlation lacks, in order. -/
def Correlation.unidentified (c : Correlation) : List String :=
  lack "traceId" c.trace ++ (lack "userId" c.user ++ lack "deptId" c.dept)

/-- The names of what a chat turn needs in addition and the correlation lacks, in order. -/
def Correlation.unplaced (c : Correlation) : List String :=
  lack "conversationId" c.conversation ++ if c.turn = none then ["turnId"] else []

/-- The names of what an event of a kind needs and the correlation lacks, in order. -/
def Correlation.missing (kind : EventKind) (c : Correlation) : List String :=
  c.unidentified ++ if kind = .chatTurn then c.unplaced else []

theorem Correlation.reports_demand (field : String) (value : Option String) :
    Reports (demand field value) ((lack field value).map .missingCorrelation) := by
  unfold demand lack
  cases value with
  | none => exact reports_faultOf (.error _)
  | some s =>
    rw [Option.getD_some]
    dsimp only
    split
    · exact reports_faultOf (.error _)
    · exact .ok ()

theorem Correlation.reports_requireIdentity (c : Correlation) :
    Reports c.requireIdentity (c.unidentified.map .missingCorrelation) := by
  rw [unidentified, List.map_append, List.map_append]
  exact (reports_demand _ _).bind fun _ _ => (reports_demand _ _).bind fun _ _ => reports_demand _ _

theorem Correlation.reports_requireTurn (c : Correlation) :
    Reports c.requireTurn ((c.unidentified ++ c.unplaced).map .missingCorrelation) := by
  rw [unplaced, List.map_append, List.map_append]
  refine c.reports_requireIdentity.bind fun _ _ => (reports_demand _ _).bind fun _ _ => ?_
  cases c.turn with
  | none => exact reports_faultOf (.error _)
  | some n => exact .ok ()

/-- A requirement that is not met names the first thing that is missing. -/
theorem Event.reports_requirement (kind : EventKind) (c : Correlation) :
    Reports (requirement kind c) ((c.missing kind).map .missingCorrelation) := by
  have identity (other : kind ≠ .chatTurn) :
      Reports c.requireIdentity ((c.missing kind).map .missingCorrelation) := by
    rw [Correlation.missing, if_neg other, List.append_nil]
    exact c.reports_requireIdentity
  cases kind with
  | chatTurn => exact c.reports_requireTurn
  | security => exact identity (by decide)
  | feedback => exact identity (by decide)

/-- The kind of the payload. -/
def PayloadDraft.kind : PayloadDraft → EventKind
  | .chatTurn .. => .chatTurn
  | .security .. => .security
  | .feedback .. => .feedback

theorem PayloadDraft.Gives.kind {d : PayloadDraft} {p : Payload} (gives : d.Gives p) :
    p.kind = d.kind := by
  cases gives <;> rfl

/-- The faults of an event, in order. -/
def EventDraft.faults (d : EventDraft) : List EventError :=
  d.payload.faults ++ (d.correlation.missing d.payload.kind).map .missingCorrelation

/-- An event has what its draft says, and the correlation tells what it needs. -/
structure EventDraft.Gives (d : EventDraft) (id : EventId) (time : Instant) (e : Event) : Prop where
  id : e.id = id
  time : e.occurredAt = time
  carries : Guards.Carries e d.correlation
  payload : d.payload.Gives e.payload
  enough : d.correlation.Suffices d.payload.kind

theorem EventDraft.build_eq_ok_iff {d : EventDraft} {id : EventId} {time : Instant}
    {event : Event} :
    d.build id time = .ok event ↔ d.Gives id time event := by
  simp only [build, bind_eq_ok_iff, PayloadDraft.check_eq_ok_iff, Event.build,
    Event.requirement_eq_ok_iff, Correlation.present_eq_ok_iff]
  constructor
  · rintro ⟨p, gives, _, enough, trace, ht, user, hu, dept, hd, ⟨⟩⟩
    exact ⟨rfl, rfl, ⟨ht, hu, hd, rfl, rfl⟩, gives, gives.kind ▸ enough⟩
  · rintro ⟨rfl, rfl, carries, gives, enough⟩
    exact ⟨_, gives, ⟨⟩, gives.kind.symm ▸ enough, _, carries.trace, _, carries.user, _,
      carries.dept, by rw [carries.conversation, carries.turn]; rfl⟩

/-- An event is refused with its first fault. -/
theorem EventDraft.reports_build (d : EventDraft) (id : EventId) (time : Instant) :
    Reports (d.build id time) d.faults := by
  refine d.payload.reports_check.bind fun p made e => ?_
  rw [Event.build_eq_error_iff, (PayloadDraft.check_eq_ok_iff.mp made).kind]
  exact Event.reports_requirement _ _ e

/-- Several drafts are refused with the first fault of the first that has one. -/
theorem EventDraft.reports_buildAll (serial : Nat) (time : Instant) (ds : List EventDraft) :
    Reports (buildAll serial time ds) (ds.flatMap faults) := by
  induction ds generalizing serial with
  | nil => exact .ok []
  | cons d ds ih =>
    rw [List.flatMap_cons]
    exact (d.reports_build _ _).bind fun _ _ => (ih _).last

/-- Several drafts give their events in order, with consecutive serial numbers and at one time. -/
theorem EventDraft.buildAll_eq_ok_iff {serial : Nat} {time : Instant} {ds : List EventDraft}
    {events : List Event} : buildAll serial time ds = .ok events ↔
      List.Forall₂ (fun d event => d.1.Gives ⟨d.2⟩ time event) (ds.zipIdx serial) events := by
  induction ds generalizing serial events with
  | nil =>
    constructor
    · rintro ⟨⟩
      exact .nil
    · rintro ⟨⟩
      rfl
  | cons d ds ih =>
    simp only [buildAll, bind_eq_ok_iff, build_eq_ok_iff, ih, List.zipIdx_cons]
    constructor
    · rintro ⟨event, first, rest, made, ⟨⟩⟩
      exact .cons first made
    · rintro (_ | ⟨first, made⟩)
      exact ⟨_, first, _, made, rfl⟩

end EventRelay
