import EventRelay.Publisher

/-!
# Running activities to their end

An activity that runs alone waits for nothing but time. Running it to its end lets time pass to its
next deadline whenever it waits. A session offers events, runs flushes one after the other and then
shuts the publisher down.
-/

namespace EventRelay.Publisher

namespace State

/-- Runs an activity; whenever it waits, at most `fuel` times, time passes to its deadline. -/
def completeWithin (me : ActivityId) : Nat → State → State
  | 0, s => s
  | fuel + 1, s =>
    let s := s.poll me
    match s.deadline me with
    | none => s
    | some t => completeWithin me fuel (s.elapse (t - s.now))

/-- Runs an activity to its end. A cycle waits at most three times and takes at least one event. -/
def complete (s : State) (me : ActivityId) : State :=
  s.completeWithin me (3 * s.queue.length + 8)

/-- The outcome of a flush that has ended. -/
def outcome? (s : State) (me : ActivityId) : Option Outcome :=
  match s.activity? me with
  | some (.ended (.flushed o)) => some o
  | _ => none

/-- Offers events one after the other. -/
def offerAll (s : State) : List Event → State × List Bool
  | [] => (s, [])
  | e :: rest =>
    let (s, accepted) := s.offer e
    let (s, verdicts) := s.offerAll rest
    (s, accepted :: verdicts)

/-- Runs flushes one after the other. -/
def flushAll (s : State) : Nat → State × List Outcome
  | 0 => (s, [])
  | count + 1 =>
    let me := s.activities.length
    let s := s.callFlush.complete me
    let (rest, outcomes) := s.flushAll count
    (rest, (s.outcome? me).toList ++ outcomes)

/-- Shuts the publisher down. -/
def shutDown (s : State) : State := s.callShutdown.complete s.activities.length

/-- The batches that were handed over, in order. -/
def handed (s : State) : List Envelope :=
  s.history.reverse.filterMap fun
    | .handed _ _ batch _ => some batch
    | _ => none

/-- The reports, in order. -/
def notices (s : State) : List Notice :=
  s.history.reverse.filterMap fun
    | .notice n => some n
    | _ => none

end State

/-- What a session came to. -/
structure Session where
  /-- Which events were taken. -/
  verdicts : List Bool
  /-- The outcomes of the flushes. -/
  outcomes : List Outcome
  /-- The publisher after its shutdown. -/
  final : State

/-- Offers events, runs a number of flushes and shuts the publisher down. -/
def State.session (s : State) (events : List Event) (flushes : Nat) : Session :=
  let (s, verdicts) := s.offerAll events
  let (s, outcomes) := s.flushAll flushes
  ⟨verdicts, outcomes, s.shutDown⟩

end EventRelay.Publisher
