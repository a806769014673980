import EventRelay.Publisher.Notice
import EventRelay.Publisher.Waiting

/-!
# The state of a publisher

A publisher owns a bounded queue of events, its counters and the activities that work on the queue:
the flush loop, calls that flush and calls that stop. At most one of them runs a flush cycle at a
time. Everything that an observer can see is recorded in the history. The collector is described by
its answers to the coming attempts and by the one answer that it gives to all later ones. Times and
delays are whole milliseconds; anything finer is out of scope.
-/

namespace EventRelay.Publisher

/-- How an attempt ends once the collector has stopped stalling. -/
inductive Ending
  /-- The batch is delivered. -/
  | success
  /-- The attempt fails. -/
  | failure (e : DeliveryError)
  /-- No answer ever comes. -/
  | silence
  /-- The transport breaks down and takes the running activity with it. -/
  | breakdown
  deriving DecidableEq, Repr

/-- The answer of the collector to one attempt. -/
structure Response where
  /-- How long the collector stalls first, in milliseconds. -/
  stall : Nat := 0
  /-- What comes after that. -/
  ending : Ending := .success
  deriving DecidableEq, Repr, Inhabited

/-- The way to a collector. -/
structure Transport where
  /-- The answers to the coming attempts, in order. -/
  coming : List Response := []
  /-- The answer to every attempt after those. -/
  later : Response := {}
  deriving DecidableEq, Repr, Inhabited

/-- The answer to the next attempt, and what is left after it. -/
def Transport.next (t : Transport) : Response × Transport :=
  match t.coming with
  | [] => (t.later, t)
  | r :: rest => (r, { t with coming := rest })

/-- How the attempt stands `elapsed` milliseconds after its start; `none` while it is under way. An
answer that comes exactly at the limit still counts. -/
def Response.resultAfter (r : Response) (elapsed limit : Nat) : Option Ending :=
  if r.stall ≤ elapsed ∧ r.ending ≠ .silence then some r.ending
  else if limit ≤ elapsed then some (.failure (.timeout limit))
  else none

/-- When the attempt comes to an end, counted from its start. -/
def Response.duration (r : Response) (limit : Nat) : Nat :=
  if r.ending = .silence then limit else min r.stall limit

/-- The attempt has a result exactly from its end on. -/
theorem Response.resultAfter_isSome_iff (r : Response) (elapsed limit : Nat) :
    (r.resultAfter elapsed limit).isSome = true ↔ r.duration limit ≤ elapsed := by
  unfold resultAfter duration
  split
  · next h => simp [h.2]; omega
  · next h =>
    split
    · next hl => simp; split <;> omega
    · next hl =>
      simp only [Option.isSome_none, Bool.false_eq_true, false_iff]
      split
      · omega
      · next hs =>
        have : ¬ r.stall ≤ elapsed := fun hle => h ⟨hle, hs⟩
        omega

/-- What a flush cycle achieved, with the number of events in its batch. -/
inductive Outcome
  /-- Nothing was queued. -/
  | empty
  /-- The batch was delivered. -/
  | delivered (events : Nat)
  /-- The batch was dropped. -/
  | dropped (events : Nat)
  deriving DecidableEq, Repr

/-- Where a flush cycle stands. -/
inductive Cycle
  /-- It has not asked for its turn. -/
  | arriving
  /-- It waits for its turn. -/
  | waiting
  /-- It has the turn and has not looked at the queue. -/
  | admitted
  /-- An attempt is under way since `begun`. -/
  | attempting (batch : Envelope) (second : Bool) (begun : Nat) (response : Response)
  /-- It waits for the time of the second attempt. -/
  | pausing (batch : Envelope) (resume : Nat)
  deriving DecidableEq, Repr

/-- Where the flush loop stands; `tick` is the time of its next interval tick. -/
inductive Loop
  /-- It has not run yet. -/
  | created
  /-- It is about to wait, or to end. -/
  | resting (tick : Nat)
  /-- It waits for a shutdown, a wake-up or its tick. -/
  | parked (tick : Nat)
  /-- It is about to flush, or to end. -/
  | draining (tick : Nat)
  /-- It runs a flush cycle. -/
  | flushing (tick : Nat) (cycle : Cycle)
  deriving DecidableEq, Repr

/-- Where a shutdown stands. -/
inductive Shutdown
  /-- It has not run yet. -/
  | called
  /-- It waits for the loop until a deadline. -/
  | joining (loop : ActivityId) (deadline : Nat)
  /-- It waits for the loop, which it has cancelled. -/
  | cancelling (loop : ActivityId)
  /-- It runs the final flush; events sent and lost so far. -/
  | flushing (cycle : Cycle) (sent lost : Nat)
  deriving DecidableEq, Repr

/-- How an activity ended. -/
inductive Closing
  /-- A flush returned. -/
  | flushed (o : Outcome)
  /-- A shutdown returned. -/
  | stopped
  /-- The loop returned. -/
  | exited
  /-- It was cancelled. -/
  | cancelled
  /-- It was taken down by the transport. -/
  | broken
  deriving DecidableEq, Repr

/-- An activity that works on the queue. -/
inductive Activity
  /-- The flush loop; it may have been asked to end at its next step. -/
  | loop (l : Loop) (cancelled : Bool)
  /-- A call that runs one flush cycle. -/
  | flush (c : Cycle)
  /-- A call that shuts the publisher down. -/
  | shutdown (s : Shutdown)
  /-- An activity that has ended. -/
  | ended (c : Closing)
  deriving DecidableEq, Repr

/-- What a selecting loop may wake up for. -/
inductive Branch
  /-- The shutdown signal. -/
  | shutdown
  /-- The wake-up signal. -/
  | wake
  /-- The interval tick. -/
  | tick
  deriving DecidableEq, Repr

/-- The branches in the order in which they are looked at when `first` comes first. -/
def Branch.order : Branch → List Branch
  | .shutdown => [.shutdown, .wake, .tick]
  | .wake => [.wake, .tick, .shutdown]
  | .tick => [.tick, .shutdown, .wake]

/-- The counters of a publisher. They are natural numbers: that a counter of 64 bits starts again
from zero after the largest number is out of scope. -/
structure Stats where
  /-- Events taken into the queue. -/
  accepted : Nat := 0
  /-- Events refused because nothing was accepted. -/
  rejected : Nat := 0
  /-- Events refused because the queue was full. -/
  queueFull : Nat := 0
  /-- Batches delivered. -/
  batchesDelivered : Nat := 0
  /-- Events delivered. -/
  eventsDelivered : Nat := 0
  /-- Batches dropped. -/
  batchesDropped : Nat := 0
  /-- Events dropped. -/
  eventsDropped : Nat := 0
  /-- Second attempts announced. -/
  retries : Nat := 0
  deriving DecidableEq, Repr, Inhabited

namespace Stats

/-- One batch of `n` events delivered. -/
def recordDelivered (s : Stats) (n : Nat) : Stats :=
  { s with batchesDelivered := s.batchesDelivered + 1, eventsDelivered := s.eventsDelivered + n }

/-- One batch of `n` events dropped. -/
def recordDropped (s : Stats) (n : Nat) : Stats :=
  { s with batchesDropped := s.batchesDropped + 1, eventsDropped := s.eventsDropped + n }

end Stats

/-- What became of an event that was offered. -/
inductive Verdict
  /-- It is in the queue. -/
  | accepted
  /-- Nothing is accepted. -/
  | rejected
  /-- The queue is full. -/
  | full
  deriving DecidableEq, Repr

/-- Something that an observer can see. -/
inductive Observation
  /-- A report. -/
  | notice (n : Notice)
  /-- An event was offered. -/
  | offered (e : Event) (v : Verdict)
  /-- The flush loop was started. -/
  | loopStarted (i : ActivityId)
  /-- A batch was taken off the queue. -/
  | drained (actor : ActivityId) (events : List Event)
  /-- A batch was handed to the collector. -/
  | handed (actor : ActivityId) (time : Nat) (batch : Envelope) (second : Bool)
  /-- An attempt came to its end. -/
  | answered (actor : ActivityId) (time : Nat) (result : Ending)
  deriving DecidableEq, Repr

/-- The state of a publisher. -/
structure State where
  /-- The settings. -/
  settings : Settings
  /-- The way to the collector, if there is one. -/
  transport : Option Transport
  /-- The branches that a selecting loop looks at first. -/
  tosses : List Branch := []
  /-- The clock, in milliseconds. -/
  now : Nat := 0
  /-- The queued events, the oldest first. -/
  queue : List Event := []
  /-- The counters. -/
  stats : Stats := {}
  /-- The phase. -/
  phase : Phase := .stopped
  /-- Nothing is accepted any more. -/
  closed : Bool := false
  /-- The loop is asked to end. -/
  shutdown : Bool := false
  /-- The loop, as long as no shutdown has taken charge of it. -/
  worker : Option ActivityId := none
  /-- Wakes the loop when a batch is full. -/
  wake : Signal := {}
  /-- Wakes the loop when it has to end. -/
  shutdownSignal : Signal := {}
  /-- The right to run a flush cycle. -/
  turn : Turn := {}
  /-- All activities, by number. -/
  activities : List Activity := []
  /-- What an observer has seen, the latest first. -/
  history : List Observation := []

namespace State

/-- Whether events can be accepted and delivered at all. -/
def enabled (s : State) : Bool := s.settings.enabled && s.transport.isSome

/-- Adds to the history. -/
def observe (s : State) (o : Observation) : State := { s with history := o :: s.history }

/-- Adds a report to the history. -/
def report (s : State) (n : Notice) : State := s.observe (.notice n)

/-- The activity with the given number. -/
def activity? (s : State) (i : ActivityId) : Option Activity := s.activities[i]?

/-- Replaces an activity. -/
def setActivity (s : State) (i : ActivityId) (a : Activity) : State :=
  { s with activities := s.activities.set i a }

/-- Adds an activity; its number is the number of activities before. -/
def addActivity (s : State) (a : Activity) : State :=
  { s with activities := s.activities ++ [a] }

/-- Whether an activity has ended. -/
def isEnded (s : State) (i : ActivityId) : Bool :=
  match s.activity? i with
  | some (.ended _) => true
  | _ => false

/-- Makes a transition, if the phase allows it, and reports it. -/
def move? (s : State) (t : Transition) : Option State :=
  (s.phase.next? t).map fun p => { s.report (.moved s.phase p t) with phase := p }

/-- The number of queued events. -/
def queueLength (s : State) : Nat := s.queue.length

/-- The state as logs show it. -/
def debug (s : State) : String :=
  "Publisher \x7b enabled: " ++ Settings.debugBool s.settings.enabled ++
    ", state: " ++ s.phase.name ++ s!", queue_len: {s.queueLength}" ++
    ", closed: " ++ Settings.debugBool s.closed ++ ", .. \x7d"

@[simp] theorem queue_observe (s : State) (o : Observation) : (s.observe o).queue = s.queue := rfl

@[simp] theorem stats_observe (s : State) (o : Observation) : (s.observe o).stats = s.stats := rfl

@[simp] theorem history_observe (s : State) (o : Observation) :
    (s.observe o).history = o :: s.history := rfl

@[simp] theorem activities_observe (s : State) (o : Observation) :
    (s.observe o).activities = s.activities := rfl

end State

end EventRelay.Publisher
