import EventRelay.Publisher.State

/-!
# Flush cycles

A flush cycle waits for its turn, takes one batch off the queue and hands it to the collector once,
or twice if the first attempt fails and a second one is allowed. The batch is then counted, once, as
delivered or as dropped. A cycle that is cut off after it has taken a batch counts the batch as
dropped. The turn is given up at the very end.
-/

namespace EventRelay.Publisher

/-- How many event identities a report of a loss shows. -/
def sampleSize : Nat := 5

namespace State

/-- Gives up the turn. -/
def release (s : State) : State := { s with turn := s.turn.release }

/-- Counts a batch as delivered. -/
def settleDelivered (s : State) (batch : Envelope) : State :=
  ({ s with stats := s.stats.recordDelivered batch.size }).report (.delivered batch.size)

/-- Counts a batch as dropped after its last attempt. -/
def settleDropped (s : State) (batch : Envelope) (e : DeliveryError) : State :=
  ({ s with stats := s.stats.recordDropped batch.size }).report
    (.dropped e batch.size (batch.sample sampleSize))

/-- Counts a batch as dropped because its delivery was cut off. -/
def abandon (s : State) (batch : Envelope) : State :=
  ({ s with stats := s.stats.recordDropped batch.size }).report
    (.abandoned batch.size (batch.sample sampleSize))

/-- The answer to the next attempt, and the state in which it is used up. -/
def nextResponse (s : State) : Response × State :=
  match s.transport with
  | some t => (t.next.1, { s with transport := some t.next.2 })
  | none => ({}, s)

/-- Hands a batch to the collector. -/
def hand (s : State) (me : ActivityId) (batch : Envelope) (second : Bool) : State × Cycle :=
  let (response, s) := s.nextResponse
  (s.observe (.handed me s.now batch second), .attempting batch second s.now response)

/-- Takes a batch off the queue. -/
def drain (s : State) (me : ActivityId) : State × List Event :=
  let events := s.queue.take s.settings.batchSize.value
  ({ s with queue := s.queue.drop s.settings.batchSize.value }.observe (.drained me events), events)

end State

/-- What one step of a flush cycle leads to. -/
inductive CycleStep
  /-- Nothing to do until something else happens. -/
  | waits
  /-- The cycle goes on. -/
  | goes (s : State) (c : Cycle)
  /-- The cycle is over. -/
  | ends (s : State) (o : Outcome)
  /-- The transport broke down. -/
  | breaks (s : State)

/-- One step of a flush cycle run by `me`; `retry` allows a second attempt. Between the queue and
the first attempt the batch is encoded, which cannot fail and has no branch here: whatever the
events say, `Envelope.body` is their text. -/
def Cycle.step (s : State) (me : ActivityId) (retry : Bool) : Cycle → CycleStep
  | .arriving =>
    .goes { s with turn := s.turn.request me }
      (if s.turn.holder = none then .admitted else .waiting)
  | .waiting => if s.turn.holder = some me then .goes s .admitted else .waits
  | .admitted =>
    if s.queue = [] then .ends s.release .empty
    else
      let (s, events) := s.drain me
      match s.transport with
      | none =>
        let s := { s with stats := s.stats.recordDropped events.length }
        let s := s.report (.noCollector events.length ((events.take sampleSize).map Event.id))
        .ends s.release (.dropped events.length)
      | some _ =>
        let (s, c) := s.hand me ⟨s.settings.source, ⟨s.now⟩, events⟩ false
        .goes s c
  | .attempting batch second begun response =>
    match response.resultAfter (s.now - begun) s.settings.deliveryTimeout with
    | none => .waits
    | some result =>
      let s := s.observe (.answered me s.now result)
      match result with
      | .success => .ends (s.settleDelivered batch).release (.delivered batch.size)
      | .failure e =>
        if retry && !second then
          let s := s.report (.retrying e batch.size s.settings.retryDelay)
          .goes { s with stats := { s.stats with retries := s.stats.retries + 1 } }
            (.pausing batch (s.now + s.settings.retryDelay))
        else .ends (s.settleDropped batch e).release (.dropped batch.size)
      | .silence => .waits
      | .breakdown => .breaks (s.abandon batch).release
  | .pausing batch resume =>
    if resume ≤ s.now then
      let (s, c) := s.hand me batch true
      .goes s c
    else .waits

/-- Cuts a flush cycle off. -/
def Cycle.cancel (s : State) (me : ActivityId) : Cycle → State
  | .arriving => s
  | .waiting => { s with turn := s.turn.withdraw me }
  | .admitted => s.release
  | .attempting batch _ _ _ => (s.abandon batch).release
  | .pausing batch _ => (s.abandon batch).release

/-- The batch that a cycle has taken and not counted. -/
def Cycle.flight : Cycle → List Event
  | .attempting batch _ _ _ => batch.events
  | .pausing batch _ => batch.events
  | _ => []

/-- When a waiting cycle can go on by itself. -/
def Cycle.deadline (limit : Nat) : Cycle → Option Nat
  | .attempting _ _ begun response => some (begun + response.duration limit)
  | .pausing _ resume => some resume
  | _ => none

end EventRelay.Publisher
