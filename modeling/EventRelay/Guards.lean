import EventRelay.Request.Scope

/-!
# Emission guards

A guard emits an event for the current request at most once per slot. It claims the slot before
anything else, then demands the correlation that the event needs, then a sink, and only then builds
the event. The sink is asked exactly once for every event that was built. What a guard decides is
data: either the outcome, or the event to offer.
-/

namespace EventRelay

/-- How a guard call ended. -/
inductive EmitOutcome
  /-- The sink took the event. -/
  | emitted
  /-- The sink refused the event. -/
  | rejected
  /-- The slot had been claimed before. -/
  | duplicate
  /-- The correlation is incomplete, or there is no request. -/
  | missingContext
  /-- There is no sink, or the event could not be built. -/
  | failed
  deriving DecidableEq, Repr

/-- The name of an outcome. -/
def EmitOutcome.name : EmitOutcome → String
  | .emitted => "Emitted"
  | .rejected => "Rejected"
  | .duplicate => "Duplicate"
  | .missingContext => "MissingContext"
  | .failed => "Failed"

/-- Why no event was offered. -/
inductive EmitError
  /-- There is no sink. -/
  | missingSink
  /-- The event could not be built. -/
  | event (e : EventError)
  deriving DecidableEq, Repr

/-- The explanation given to a reader. -/
def EmitError.message : EmitError → String
  | .missingSink => "no event sink configured"
  | .event e => "failed to build event: " ++ e.message

/-- The error as logs show it. -/
def EmitError.debug : EmitError → String
  | .missingSink => "MissingSink"
  | .event e => "Event(" ++ e.debug ++ ")"

namespace Guards

/-- The word for a kind of event in reports of guards. -/
def kindWord : EventKind → String
  | .chatTurn => "chat_turn"
  | .security => "security"
  | .feedback => "feedback"

/-- A report of a guard. -/
inductive Notice
  /-- The call came from outside any request. -/
  | outside (kind : EventKind)
  /-- The slot had been claimed before. -/
  | repeated (kind : EventKind)
  /-- The correlation is incomplete. -/
  | incomplete (kind : EventKind) (e : EventError)
  /-- The retriever is no label. -/
  | retrievalDropped (e : EventError)
  /-- A hit cannot be a source. -/
  | sourceSkipped (e : EventError)
  /-- The sink took the event. -/
  | enqueued (kind : EventKind) (id : EventId)
  /-- The sink refused the event. -/
  | notAccepted (kind : EventKind) (id : EventId)
  /-- No event was offered. -/
  | notEmitted (kind : EventKind) (e : EmitError)
  deriving DecidableEq, Repr

/-- The line of a report. -/
def Notice.line : Notice → Log.Line
  | .outside kind =>
    ⟨.debug, "no active request scope; dropping telemetry event", [("kind", .word (kindWord kind))]⟩
  | .repeated .chatTurn => ⟨.debug, "chat turn already attempted for this request", []⟩
  | .repeated kind =>
    ⟨.debug, "telemetry event already attempted for this key", [("kind", .word (kindWord kind))]⟩
  | .incomplete .chatTurn e =>
    ⟨.debug, "dropping chat turn event; correlation incomplete", [("err", e.message)]⟩
  | .incomplete kind e =>
    ⟨.debug, "dropping telemetry event; correlation incomplete",
      [("kind", .word (kindWord kind)), ("err", e.message)]⟩
  | .retrievalDropped e => ⟨.warn, "dropping retrieval info", [("err", e.message)]⟩
  | .sourceSkipped e => ⟨.warn, "skipping retrieval source", [("err", e.message)]⟩
  | .enqueued kind id =>
    ⟨.debug, "telemetry event enqueued", [("kind", .word (kindWord kind)), ("event_id", id.text)]⟩
  | .notAccepted kind id =>
    ⟨.debug, "telemetry event not accepted",
      [("kind", .word (kindWord kind)), ("event_id", id.text)]⟩
  | .notEmitted kind e =>
    ⟨.warn, "telemetry event not emitted", [("kind", .word (kindWord kind)), ("err", e.message)]⟩

/-- What a caller says about a chat turn. -/
structure ChatFields where
  /-- The main intent. -/
  intent : String
  /-- The route chosen. -/
  route : String
  /-- The business domain. -/
  domain : String
  /-- Whether retrieval contributed. -/
  ragUsed : Bool := false
  /-- Personal data was found in the input. -/
  piiInput : Bool := false
  /-- Personal data was found in the output. -/
  piiOutput : Bool := false
  /-- The class of the error when the turn failed. -/
  errorCode : Option String := none
  deriving DecidableEq, Repr

/-- The source that a hit gives. -/
def source (h : Request.Hit) : Except EventError RagSource := do
  let doc ← Label.ofText h.doc
  let chunk ← Label.ofText h.chunk
  RagSource.ofScore doc chunk h.score

/-- The sources that the hits give, in order; a hit that gives none is reported and skipped. -/
def sources : List Request.Hit → List RagSource × List Notice
  | [] => ([], [])
  | h :: rest =>
    let (good, notices) := sources rest
    match source h with
    | .ok s => (s :: good, notices)
    | .error e => (good, .sourceSkipped e :: notices)

/-- The retrieval of a chat turn; it is dropped and reported if the retriever is no label. -/
def retrieval (r : Request.Retrieval) : Option RagInfo × List Notice :=
  if r.isEmpty then (none, [])
  else
    match Label.ofText r.retriever with
    | .error e => (none, [.retrievalDropped e])
    | .ok retriever =>
      let (sources, notices) := sources r.hits
      (some ⟨retriever, r.topK, sources⟩, notices)

/-- The labels of a chat turn. -/
def ChatFields.payload (f : ChatFields) (latency : Nat) (rag : Option RagInfo) :
    Except EventError ChatTurn := do
  let intent ← Label.ofText f.intent
  let route ← Label.ofText f.route
  let domain ← Label.ofText f.domain
  let errorCode ← match f.errorCode with
    | none => .ok none
    | some code => (Label.ofText code).map some
  return ⟨intent, route, domain, f.ragUsed, latency, f.piiInput, f.piiOutput, errorCode, rag⟩

/-- The payload of a chat turn from what the caller says and what was measured, and what has to be
reported on the way. -/
def chatPayload (f : ChatFields) (m : Request.Metrics) :
    Except EventError Payload × List Notice :=
  let (rag, notices) := retrieval m.retrieval
  ((f.payload m.latency.total rag).map .chatTurn, notices)

/-- The payload of a security event. -/
def securityPayload (blockType rule : String) : Except EventError Payload := do
  let blockType ← Label.ofText blockType
  let rule ← Label.ofText rule
  return .security ⟨blockType, true, rule⟩

/-- What a caller asks a guard to emit. -/
inductive Call
  /-- The chat turn. -/
  | chatTurn (f : ChatFields)
  /-- A security block. -/
  | security (blockType rule : String)
  /-- A feedback. -/
  | feedback (value : Feedback) (conversation : String) (turn : Int)
  deriving DecidableEq, Repr

namespace Call

/-- The kind of event that is asked for. -/
def kind : Call → EventKind
  | .chatTurn _ => .chatTurn
  | .security .. => .security
  | .feedback .. => .feedback

/-- Claims the slot of the call; the answer tells whether it was free. -/
def claim (c : Call) (claims : Request.Claims) : Request.Claims × Bool :=
  match c with
  | .chatTurn _ => claims.claimChatTurn
  | .security blockType rule => claims.claim (.security blockType rule)
  | .feedback value conversation turn => claims.claim (.feedback conversation turn value)

/-- What the call needs to know of its request. -/
def requirement (c : Call) (correlation : Correlation) : Except EventError Unit :=
  Event.requirement c.kind correlation

/-- The payload of the call. -/
def payload (c : Call) (m : Request.Metrics) : Except EventError Payload × List Notice :=
  match c with
  | .chatTurn f => chatPayload f m
  | .security blockType rule => (securityPayload blockType rule, [])
  | .feedback value conversation turn => (.ok (.feedback ⟨value, conversation, turn⟩), [])

end Call

/-- What a guard decides. -/
inductive Decision
  /-- The call is over. -/
  | over (o : EmitOutcome)
  /-- The event is to be offered to the sink. -/
  | offer (e : Event)
  deriving DecidableEq, Repr

/-- A decision with the claims that are left and the reports. -/
structure Ruling where
  /-- The claims after the call; none outside a request. -/
  claims : Option Request.Claims
  /-- What is decided. -/
  decision : Decision
  /-- The reports up to the decision, in order. -/
  notices : List Notice
  deriving DecidableEq, Repr

/-- Decides a call. An event that is built gets the given identity and time. -/
def judge (call : Call) (scope : Option Request.Scope) (hasSink : Bool) (id : EventId)
    (time : Instant) : Ruling :=
  match scope with
  | none => ⟨none, .over .missingContext, [.outside call.kind]⟩
  | some scope =>
    let (claims, free) := call.claim scope.claims
    if !free then ⟨some claims, .over .duplicate, [.repeated call.kind]⟩
    else
      match call.requirement scope.correlation with
      | .error e => ⟨some claims, .over .missingContext, [.incomplete call.kind e]⟩
      | .ok _ =>
        if !hasSink then ⟨some claims, .over .failed, [.notEmitted call.kind .missingSink]⟩
        else
          let (payload, notices) := call.payload scope.metrics
          match payload.bind (Event.build id time scope.correlation) with
          | .error e =>
            ⟨some claims, .over .failed, notices ++ [.notEmitted call.kind (.event e)]⟩
          | .ok event => ⟨some claims, .offer event, notices⟩

/-- The outcome of an offer, and its report. -/
def conclude (e : Event) (accepted : Bool) : EmitOutcome × Notice :=
  if accepted then (.emitted, .enqueued e.kind e.id) else (.rejected, .notAccepted e.kind e.id)

end Guards

end EventRelay
