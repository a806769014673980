import EventRelay.Collector
import EventRelay.Publisher.Activity

/-!
# Publishers

A publisher takes events without waiting and ships them in batches. It is made from checked
settings; without a collector, or when disabled, it refuses every event. Its runs are sequences of
actions: events are offered, calls begin, activities run or are cut off, and time passes.

All tasks share one cooperative scheduler. A task gives way to others only where it waits, so a call
that never waits is one action, and of an activity one step is what happens between two places where
it may wait. Tasks that run at the same time on several processors are out of scope.
-/

namespace EventRelay.Publisher

namespace State

/-- Offers an event. A full batch wakes the loop. The call never waits: nothing happens between the
look at the publisher and the entry into the queue, so it is one action. -/
def offer (s : State) (e : Event) : State × Bool :=
  if !s.enabled || s.closed then
    let s := { s with stats := { s.stats with rejected := s.stats.rejected + 1 } }
    ((s.report (.refused e.id)).observe (.offered e .rejected), false)
  else if s.queue.length < s.settings.maxQueueSize.value then
    let s := { s with
      queue := s.queue ++ [e]
      stats := { s.stats with accepted := s.stats.accepted + 1 } }
    let s :=
      if s.settings.batchSize.value ≤ s.queue.length then { s with wake := s.wake.notify } else s
    (s.observe (.offered e .accepted), true)
  else
    let s := { s with stats := { s.stats with queueFull := s.stats.queueFull + 1 } }
    ((s.report (.queueFull e.id e.kind s.settings.maxQueueSize.value)).observe (.offered e .full),
      false)

/-- Starts the flush loop, once. `runtime` says whether there is anything that could run it. Like an
offer the call never waits. -/
def start (s : State) (runtime : Bool) : State × Except PublisherError Unit :=
  if !s.enabled then (s.report .startDisabled, .ok ())
  else if s.closed then (s.report .startAfterStop, .ok ())
  else if !runtime then (s, .error .noRuntime)
  else
    match s.phase with
    | .running => (s, .ok ())
    | .stopping => (s.report .startWhileStopping, .ok ())
    | .stopped =>
      match s.move? .start with
      | none => (s, .error (.invalidTransition s.phase .start))
      | some moved =>
        let me := moved.activities.length
        let s := { moved.addActivity (.loop .created false) with worker := some me }
        let s := s.observe (.loopStarted me)
        (s.report (.started s.settings.batchSize.value s.settings.flushInterval
          s.settings.maxQueueSize.value), .ok ())

/-- Begins a call that runs one flush cycle. -/
def callFlush (s : State) : State := s.addActivity (.flush .arriving)

/-- Begins a call that shuts the publisher down. -/
def callShutdown (s : State) : State := s.addActivity (.shutdown .called)

/-- Lets time pass. -/
def elapse (s : State) (millis : Nat) : State := { s with now := s.now + millis }

end State

/-- What can happen to a publisher. -/
inductive Action
  /-- An event is offered. -/
  | offer (e : Event)
  /-- The loop is started. -/
  | start (runtime : Bool)
  /-- A flush is called. -/
  | flush
  /-- A shutdown is called. -/
  | shutdown
  /-- An activity makes one step. -/
  | step (i : ActivityId)
  /-- An activity runs until it has to wait. -/
  | poll (i : ActivityId)
  /-- A call is cut off. -/
  | cancel (i : ActivityId)
  /-- Time passes. -/
  | elapse (millis : Nat)
  deriving DecidableEq, Repr

/-- The state after an action. -/
def State.apply (s : State) : Action → State
  | .offer e => (s.offer e).1
  | .start runtime => (s.start runtime).1
  | .flush => s.callFlush
  | .shutdown => s.callShutdown
  | .step i => (s.step? i).getD s
  | .poll i => s.poll i
  | .cancel i =>
    match s.activity? i with
    | some (.loop ..) => s
    | _ => s.cancel i
  | .elapse millis => s.elapse millis

/-- The state after a sequence of actions. -/
def State.run (s : State) (actions : List Action) : State := actions.foldl State.apply s

/-- A publisher with checked settings and the given way to a collector. -/
def create (settings : Settings) (transport : Transport) (tosses : List Branch) :
    Except PublisherError State :=
  match settings.validate with
  | .error e => .error (.settings e)
  | .ok _ => .ok { settings, transport := some transport, tosses }

/-- A publisher from settings alone, with the HTTP collector that they describe if they
enable it. -/
def ofSettings (settings : Settings) (reach : Collector → Transport) (tosses : List Branch) :
    Except PublisherError State :=
  match settings.validate with
  | .error e => .error (.settings e)
  | .ok _ =>
    if !settings.enabled then
      .ok (State.report { settings, transport := none, tosses } .publishingDisabled)
    else
      match Collector.ofSettings settings with
      | .error e => .error e
      | .ok c => .ok { settings, transport := some (reach c), tosses }

/-- A publisher that refuses every event. -/
def disabled : State := { settings := {}, transport := none }

end EventRelay.Publisher
