import EventRelay.Collector
import EventRelay.Publisher.State

/-!
# Exchanges with a collector

A batch travels as one HTTP request. What becomes of it depends on the network: no host may be in
reach, nobody may listen, or a server answers, hangs up or keeps silent. An attempt succeeds exactly
if a status from 200 to 299 comes back; of the body of any other answer only the bytes that came are
looked at. A request that cannot be formed never reaches the network.
-/

namespace EventRelay

open Publisher (Ending Response Transport)

/-- What a server does with a request. -/
inductive Reply
  /-- It answers with a status; of the body these chunks arrive before it ends or, if it is broken,
  cannot be read any further. -/
  | answer (status : Nat) (body : List (List UInt8)) (broken : Bool := false)
  /-- It closes the connection. -/
  | hangUp
  /-- It never answers. -/
  | silence
  deriving DecidableEq, Repr

/-- Where requests go. -/
inductive Network
  /-- No host is in reach. -/
  | unreachable
  /-- Nobody listens at the address. -/
  | refusing
  /-- A server plays these replies, and answers every later request with 200. -/
  | serving (replies : List Reply)
  deriving DecidableEq, Repr

namespace Reply

/-- Whether a status tells of success. -/
def isSuccess (status : Nat) : Bool := 200 ≤ status && status < 300

/-- A body as it is read. -/
def pieces (body : List (List UInt8)) (broken : Bool) : List Piece :=
  body.map .chunk ++ if broken then [.fault] else []

/-- The failure of a request that was formed and got no answer. -/
def requestFailed (cause : String) : Ending :=
  .failure (.transport ("collector request failed: " ++ cause))

/-- How an attempt with this reply ends. -/
def ending : Reply → Ending
  | .answer status body broken =>
    if isSuccess status then .success
    else .failure (.status status (Delivery.reason (pieces body broken)))
  | .hangUp => requestFailed "connection closed before message completed"
  | .silence => .silence

end Reply

/-- A request as a server reads it from the line: the blanks around a header value are lost. -/
def Post.onArrival (p : Post) : Post :=
  { p with headers := p.headers.map fun h => (h.1, Text.trimHeader h.2) }

namespace Network

/-- Why no connection comes about. -/
def connectFailed (cause : String) : Ending :=
  Reply.requestFailed ("error trying to connect: tcp connect error: " ++ cause)

/-- How the attempt with the given number ends; attempts count from zero. -/
def ending (n : Network) (attempt : Nat) : Ending :=
  match n with
  | .unreachable => connectFailed "Network is unreachable (os error 101)"
  | .refusing => connectFailed "Connection refused (os error 111)"
  | .serving replies => (replies[attempt]?.getD (.answer 200 [])).ending

/-- The way to a collector through the network. -/
def transport (n : Network) (c : Collector) : Transport :=
  match c.headers with
  | .error e => { later := { ending := .failure e } }
  | .ok _ =>
    match n with
    | .serving replies => { coming := replies.map fun r => { ending := r.ending } }
    | _ => { later := { ending := n.ending 0 } }

/-- One attempt to hand a batch to a collector. -/
def deliver (n : Network) (c : Collector) (batch : Envelope) (attempt : Nat) : Ending :=
  match c.post batch with
  | .error e => .failure e
  | .ok _ => n.ending attempt

/-- The requests that arrive when batches are handed over, as the server reads them. -/
def received (n : Network) (c : Collector) (batches : List Envelope) : List Post :=
  match n with
  | .serving _ => batches.filterMap fun batch => (c.post batch).toOption.map Post.onArrival
  | _ => []

end Network

end EventRelay
