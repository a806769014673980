import EventRelay.Delivery
import EventRelay.Log
import EventRelay.Publisher.Phase

/-!
# What a publisher reports

Every report has a value of its own and one line of text. Losses are reported as errors with the
number of events, deliveries and transitions as details.
-/

namespace EventRelay.Publisher

/-- A report of a publisher. -/
inductive Notice
  /-- Publishing is disabled by the settings. -/
  | publishingDisabled
  /-- A disabled publisher is asked to start. -/
  | startDisabled
  /-- A stopped publisher is asked to start. -/
  | startAfterStop
  /-- A publisher is asked to start while it is stopping. -/
  | startWhileStopping
  /-- The flush loop was started. -/
  | started (batchSize flushInterval maxQueueSize : Nat)
  /-- The phase changed. -/
  | moved (before after : Phase) (via : Transition)
  /-- An event was refused because nothing is accepted. -/
  | refused (id : EventId)
  /-- An event was refused because the queue is full. -/
  | queueFull (id : EventId) (kind : EventKind) (capacity : Nat)
  /-- A shutdown was asked for again. -/
  | stopRepeated (phase : Phase)
  /-- The flush loop did not end in time. -/
  | loopOverdue (limit : Nat)
  /-- The shutdown is complete: what its own flush sent and lost, and the counters. -/
  | finished (sent lost allSent allLost overflow : Nat)
  /-- A batch was dropped for want of a collector. -/
  | noCollector (count : Nat) (sample : List EventId)
  /-- The first attempt failed and a second one follows. -/
  | retrying (error : DeliveryError) (count retryIn : Nat)
  /-- A batch was delivered. -/
  | delivered (count : Nat)
  /-- A batch was dropped after its last attempt. -/
  | dropped (error : DeliveryError) (count : Nat) (sample : List EventId)
  /-- A batch was dropped because its delivery was cut off. -/
  | abandoned (count : Nat) (sample : List EventId)
  /-- The flush loop ended. -/
  | loopExited
  deriving DecidableEq, Repr

open Log in
/-- The line of a report. -/
def Notice.line : Notice → Line
  | .publishingDisabled => ⟨.info, "telemetry publishing disabled by configuration", []⟩
  | .startDisabled => ⟨.debug, "publisher disabled; not starting flush loop", []⟩
  | .startAfterStop => ⟨.warn, "publisher already stopped; start ignored", []⟩
  | .startWhileStopping => ⟨.warn, "publisher stopping; start ignored", []⟩
  | .started batchSize flushInterval maxQueueSize =>
    ⟨.info, "telemetry publisher started", [("batch_size", number batchSize),
      ("flush_interval_ms", number flushInterval), ("max_queue_size", number maxQueueSize)]⟩
  | .moved before after via =>
    ⟨.debug, "publisher state transition",
      [("from", before.name), ("to", after.name), ("event", via.name)]⟩
  | .refused id => ⟨.debug, "publisher not accepting events", [("event_id", id.text)]⟩
  | .queueFull id kind capacity =>
    ⟨.warn, "telemetry queue full; dropping event",
      [("event_id", id.text), ("event_type", kind.word), ("capacity", number capacity)]⟩
  | .stopRepeated phase =>
    ⟨.debug, "publisher already stopping",
      [("err", (PublisherError.invalidTransition phase .stop).debug)]⟩
  | .loopOverdue limit =>
    ⟨.warn, "flush loop did not exit in time; cancelling", [("timeout_ms", number limit)]⟩
  | .finished sent lost allSent allLost overflow =>
    ⟨.info, "telemetry publisher stopped",
      [("final_delivered", number sent), ("final_dropped", number lost),
        ("events_delivered", number allSent), ("events_dropped", number allLost),
        ("dropped_queue_full", number overflow)]⟩
  | .noCollector count sample =>
    ⟨.error, "no collector transport; dropping batch",
      [("count", number count), ("sample", Log.sample sample)]⟩
  | .retrying error count retryIn =>
    ⟨.warn, "batch delivery failed; retrying once",
      [("err", error.debug), ("count", number count), ("retry_in_ms", number retryIn)]⟩
  | .delivered count => ⟨.debug, "telemetry batch delivered", [("count", number count)]⟩
  | .dropped error count sample =>
    ⟨.error, "telemetry batch dropped",
      [("err", error.debug), ("count", number count), ("sample", Log.sample sample)]⟩
  | .abandoned count sample =>
    ⟨.error, "in-flight telemetry batch abandoned",
      [("count", number count), ("sample", Log.sample sample)]⟩
  | .loopExited => ⟨.debug, "flush loop exited", []⟩

/-- Transitions one after the other from a phase: the phase after each, or the error of one that is
not allowed and leaves the phase, and the reports. -/
def Phase.walk (p : Phase) : List Transition → List (Except PublisherError Phase) × List Notice
  | [] => ([], [])
  | t :: rest =>
    match p.next? t with
    | some q =>
      let (answers, notices) := q.walk rest
      (.ok q :: answers, .moved p q t :: notices)
    | none =>
      let (answers, notices) := p.walk rest
      (.error (.invalidTransition p t) :: answers, notices)

end EventRelay.Publisher
