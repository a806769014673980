import EventRelay.Event

/-!
# Drafts of payloads

A draft holds the texts of a payload before they are checked. Checking makes the labels in the order
of the fields, with the error code and the retrieval last, and stops at the first failure.
-/

namespace EventRelay

/-- A chunk before its labels and its score are checked. -/
structure SourceDraft where
  /-- The document. -/
  doc : String
  /-- The chunk. -/
  chunk : String
  /-- The score. -/
  score : Binary64
  deriving Repr

/-- Retrieval before its labels are checked. -/
structure RagDraft where
  /-- The retriever. -/
  retriever : String
  /-- How many results were asked for. -/
  topK : Nat
  /-- The chunks in ranking order. -/
  sources : List SourceDraft
  deriving Repr

/-- A payload before its texts are checked. -/
inductive PayloadDraft
  /-- A chat turn. -/
  | chatTurn (intent route domain : String) (ragUsed : Bool) (latency : Nat)
      (piiInput piiOutput : Bool) (errorCode : Option String) (rag : Option RagDraft)
  /-- A security block. -/
  | security (blockType rule : String) (blocked : Bool)
  /-- A feedback. -/
  | feedback (value conversation : String) (turn : Int)
  deriving Repr

/-- Checks the labels of a chunk and then its score. -/
def SourceDraft.check (d : SourceDraft) : Except EventError RagSource := do
  let doc ← Label.ofText d.doc
  let chunk ← Label.ofText d.chunk
  RagSource.ofScore doc chunk d.score

/-- Checks the retriever and then each chunk. -/
def RagDraft.check (d : RagDraft) : Except EventError RagInfo := do
  let retriever ← Label.ofText d.retriever
  let sources ← d.sources.mapM SourceDraft.check
  return ⟨retriever, d.topK, sources⟩

/-- Checks an optional part. -/
def checkOption {α β ε : Type} (f : α → Except ε β) : Option α → Except ε (Option β)
  | none => .ok none
  | some a => (f a).map some

/-- The payload of a draft. -/
def PayloadDraft.check : PayloadDraft → Except EventError Payload
  | .chatTurn intent route domain ragUsed latency piiInput piiOutput errorCode rag => do
    let intent ← Label.ofText intent
    let route ← Label.ofText route
    let domain ← Label.ofText domain
    let errorCode ← checkOption Label.ofText errorCode
    let rag ← checkOption RagDraft.check rag
    return .chatTurn ⟨intent, route, domain, ragUsed, latency, piiInput, piiOutput, errorCode, rag⟩
  | .security blockType rule blocked => do
    let blockType ← Label.ofText blockType
    let rule ← Label.ofText rule
    return .security ⟨blockType, blocked, rule⟩
  | .feedback value conversation turn => do
    let feedback ← Feedback.ofText value
    return .feedback ⟨feedback, conversation, turn⟩

/-- An event before it is built. -/
structure EventDraft where
  /-- The correlation of its request. -/
  correlation : Correlation
  /-- Its payload. -/
  payload : PayloadDraft
  deriving Repr

/-- Builds the event of a draft: the payload is checked first. -/
def EventDraft.build (d : EventDraft) (id : EventId) (time : Instant) :
    Except EventError Event := do
  let payload ← d.payload.check
  Event.build id time d.correlation payload

/-- Builds the events of several drafts with consecutive serial numbers; the first failure ends
it. -/
def EventDraft.buildAll (serial : Nat) (time : Instant) :
    List EventDraft → Except EventError (List Event)
  | [] => .ok []
  | d :: rest => do
    let event ← d.build ⟨serial⟩ time
    let events ← buildAll (serial + 1) time rest
    return event :: events

end EventRelay
