import EventRelay.Correlation
import EventRelay.Payload

/-!
# Events and envelopes

An event joins the correlation of a request with a payload; it is never changed after it is built.
Events get consecutive serial numbers when they are built. Serial numbers and instants are written
by marks, so that two equal runs have equal texts. An envelope is an ordered batch of events with
the name of its sender.
-/

namespace EventRelay

/-- The identity of an event. -/
structure EventId where
  /-- Events are numbered in the order in which they are built. -/
  serial : Nat
  deriving DecidableEq, Repr

/-- The mark of an event identity in texts. -/
def EventId.text (id : EventId) : String := s!"#{id.serial}"

/-- An event identity as diagnostic logs show it. -/
def EventId.debug (id : EventId) : String := "EventId(" ++ id.text ++ ")"

/-- A point of time, in milliseconds. -/
structure Instant where
  /-- Milliseconds since the clock started. -/
  millis : Nat
  deriving DecidableEq, Repr

/-- The mark of an instant in texts. -/
def Instant.text (_ : Instant) : String := "<time>"

/-- A finished event. -/
structure Event where
  /-- The identity. -/
  id : EventId
  /-- The trace. -/
  trace : String
  /-- The conversation, if it is known. -/
  conversation : Option String
  /-- The turn, if it is known. -/
  turn : Option Int
  /-- The user. -/
  user : String
  /-- The department. -/
  dept : String
  /-- When the event was built. -/
  occurredAt : Instant
  /-- What the event says. -/
  payload : Payload
  deriving DecidableEq, Repr

namespace Event

/-- The kind of an event is the kind of its payload. -/
def kind (e : Event) : EventKind := e.payload.kind

/-- What a kind of event needs to know of its request. -/
def requirement : EventKind → Correlation → Except EventError Unit
  | .chatTurn, c => c.requireTurn
  | .security, c => c.requireIdentity
  | .feedback, c => c.requireIdentity

/-- Builds an event from the correlation of a request. The requirement comes first, so that the
texts that are taken afterwards are present and not empty. -/
def build (id : EventId) (time : Instant) (c : Correlation) (payload : Payload) :
    Except EventError Event := do
  requirement payload.kind c
  let trace ← Correlation.present "traceId" c.trace
  let user ← Correlation.present "userId" c.user
  let dept ← Correlation.present "deptId" c.dept
  return {
    id, trace, user, dept, payload
    conversation := c.conversation
    turn := c.turn
    occurredAt := time }

/-- An event as JSON. -/
def toJson (e : Event) : Json :=
  .record [("eventId", .ofString e.id.text), ("eventType", .ofString e.kind.word),
    ("traceId", .ofString e.trace), ("conversationId", .ofOption .ofString e.conversation),
    ("turnId", .ofOption .ofInt e.turn), ("userId", .ofString e.user), ("deptId", .ofString e.dept),
    ("occurredAt", .ofString e.occurredAt.text), ("payload", e.payload.toJson)]

end Event

/-- One unit of delivery. -/
structure Envelope where
  /-- The sending process. -/
  source : String
  /-- When the envelope was made. -/
  sentAt : Instant
  /-- The events in order. -/
  events : List Event
  deriving DecidableEq, Repr

namespace Envelope

/-- The number of events. -/
def size (e : Envelope) : Nat := e.events.length

/-- The identities of the first events, for logs. -/
def sample (limit : Nat) (e : Envelope) : List EventId := (e.events.take limit).map Event.id

@[simp] theorem length_sample (limit : Nat) (e : Envelope) :
    (e.sample limit).length = min limit e.size := by
  simp [sample, size]

/-- An envelope as JSON. -/
def toJson (e : Envelope) : Json :=
  .record [("source", .ofString e.source), ("sentAt", .ofString e.sentAt.text),
    ("events", .array (e.events.map Event.toJson))]

/-- The body of the request that carries the envelope. -/
def body (e : Envelope) : String := e.toJson.text

end Envelope

end EventRelay
