import EventRelay.Publisher.Cycle

/-!
# Steps of activities

The flush loop waits for a shutdown, a full batch or its interval tick and then flushes until less
than a batch is left. A shutdown closes the publisher, gives the loop a limited time to end, cancels
it after that and sends what is left, each batch once. An activity runs until it has to wait.
-/

namespace EventRelay.Publisher

namespace State

/-- The branch that is looked at first, and the state in which that choice is used up. -/
def toss (s : State) : Branch × State :=
  match s.tosses with
  | [] => (.shutdown, s)
  | b :: rest => (b, { s with tosses := rest })

/-- Whether a branch of the waiting loop can be taken. -/
def branchReady (s : State) (me : ActivityId) (tick : Nat) : Branch → Bool
  | .shutdown => s.shutdownSignal.readyFor me
  | .wake => s.wake.readyFor me
  | .tick => tick ≤ s.now

/-- Takes a branch: its notification is used up and the other signals are left. -/
def takeBranch (s : State) (me : ActivityId) : Branch → State
  | .shutdown => { s with shutdownSignal := s.shutdownSignal.take me, wake := s.wake.leave me }
  | .wake => { s with shutdownSignal := s.shutdownSignal.leave me, wake := s.wake.take me }
  | .tick => { s with shutdownSignal := s.shutdownSignal.leave me, wake := s.wake.leave me }

/-- The tick after one that is taken now. A tick that comes more than five milliseconds late delays
all later ones. -/
def nextTick (s : State) (tick : Nat) : Nat :=
  if tick + 5 < s.now then s.now + s.settings.flushInterval else tick + s.settings.flushInterval

/-- Leaves both signals. -/
def leaveSignals (s : State) (me : ActivityId) : State :=
  { s with shutdownSignal := s.shutdownSignal.leave me, wake := s.wake.leave me }

/-- Joins the waiters of both signals. -/
def joinSignals (s : State) (me : ActivityId) : State :=
  { s with shutdownSignal := s.shutdownSignal.join me, wake := s.wake.join me }

/-- Ends an activity. -/
def close (s : State) (me : ActivityId) (c : Closing) : State := s.setActivity me (.ended c)

/-- The loop ends by itself. -/
def exitLoop (s : State) (me : ActivityId) : State := (s.report .loopExited).close me .exited

/-- Replaces the stage of the loop. -/
def setLoop (s : State) (me : ActivityId) (l : Loop) : State := s.setActivity me (.loop l false)

/-- Replaces the stage of a shutdown. -/
def setShutdown (s : State) (me : ActivityId) (d : Shutdown) : State :=
  s.setActivity me (.shutdown d)

/-- Asks the loop to end at its next step. -/
def cancelLoop (s : State) (loop : ActivityId) : State :=
  match s.activity? loop with
  | some (.loop l _) => s.setActivity loop (.loop l true)
  | _ => s

end State

/-- One step of the loop; `none` if it has to wait. -/
def Loop.step? (s : State) (me : ActivityId) : Loop → Option State
  | .created => some (s.setLoop me (.resting (s.now + s.settings.flushInterval)))
  | .resting tick =>
    if s.shutdown then some (s.exitLoop me) else some (s.setLoop me (.parked tick))
  | .parked tick =>
    let (first, tossed) := s.toss
    match (Branch.order first).find? (s.branchReady me tick) with
    | some .shutdown => some ((tossed.takeBranch me .shutdown).exitLoop me)
    | some .wake => some ((tossed.takeBranch me .wake).setLoop me (.draining tick))
    | some .tick => some ((tossed.takeBranch me .tick).setLoop me (.draining (s.nextTick tick)))
    | none =>
      if s.wake.waiting.contains me && s.shutdownSignal.waiting.contains me then none
      else some (s.joinSignals me)
  | .draining tick =>
    if s.shutdown then some (s.setLoop me (.resting tick))
    else some (s.setLoop me (.flushing tick .arriving))
  | .flushing tick cycle =>
    match cycle.step s me s.settings.retryOnce with
    | .waits => none
    | .goes s c => some (s.setLoop me (.flushing tick c))
    | .ends s _ =>
      if s.queue.length < s.settings.batchSize.value then some (s.setLoop me (.resting tick))
      else some (s.setLoop me (.draining tick))
    | .breaks s => some (s.close me .broken)

/-- What has to be undone when the loop is cut off. -/
def Loop.cancel (s : State) (me : ActivityId) : Loop → State
  | .parked _ => s.leaveSignals me
  | .flushing _ cycle => cycle.cancel s me
  | _ => s

/-- One step of a shutdown; `none` if it has to wait. The first step is the stretch before the
shutdown waits for the first time: no other task sees the publisher between its change of phase and
its closing. -/
def Shutdown.step? (s : State) (me : ActivityId) : Shutdown → Option State
  | .called =>
    match s.move? .stop with
    | none => some ((s.report (.stopRepeated s.phase)).close me .stopped)
    | some moved =>
      let s := { moved with
        closed := true
        shutdown := true
        shutdownSignal := moved.shutdownSignal.notify
        worker := none }
      match moved.worker with
      | none => some (s.setShutdown me (.flushing .arriving 0 0))
      | some loop =>
        some (s.setShutdown me (.joining loop (s.now + s.settings.shutdownTimeout)))
  | .joining loop deadline =>
    if s.isEnded loop then some (s.setShutdown me (.flushing .arriving 0 0))
    else if deadline ≤ s.now then
      let s := (s.report (.loopOverdue s.settings.shutdownTimeout)).cancelLoop loop
      some (s.setShutdown me (.cancelling loop))
    else none
  | .cancelling loop =>
    if s.isEnded loop then some (s.setShutdown me (.flushing .arriving 0 0)) else none
  | .flushing cycle sent lost =>
    match cycle.step s me false with
    | .waits => none
    | .goes s c => some (s.setShutdown me (.flushing c sent lost))
    | .ends s .empty =>
      let s := (s.move? .finish).getD s
      let s := s.report
        (.finished sent lost s.stats.eventsDelivered s.stats.eventsDropped s.stats.queueFull)
      some (s.close me .stopped)
    | .ends s (.delivered n) => some (s.setShutdown me (.flushing .arriving (sent + n) lost))
    | .ends s (.dropped n) => some (s.setShutdown me (.flushing .arriving sent (lost + n)))
    | .breaks s => some (s.close me .broken)

/-- What has to be undone when a shutdown is cut off. -/
def Shutdown.cancel (s : State) (me : ActivityId) : Shutdown → State
  | .flushing cycle _ _ => cycle.cancel s me
  | _ => s

namespace State

/-- One step of an activity; `none` if it has to wait or has ended. -/
def step? (s : State) (me : ActivityId) : Option State :=
  match s.activity? me with
  | some (.loop l true) => some ((l.cancel s me).close me .cancelled)
  | some (.loop l false) => l.step? s me
  | some (.flush cycle) =>
    match cycle.step s me s.settings.retryOnce with
    | .waits => none
    | .goes s c => some (s.setActivity me (.flush c))
    | .ends s o => some (s.close me (.flushed o))
    | .breaks s => some (s.close me .broken)
  | some (.shutdown d) => d.step? s me
  | some (.ended _) => none
  | none => none

/-- Steps of an activity until it has to wait, at most `fuel` of them. -/
def advance (me : ActivityId) : Nat → State → State
  | 0, s => s
  | fuel + 1, s =>
    match s.step? me with
    | none => s
    | some s => advance me fuel s

/-- More steps than an activity can make without waiting: each cycle takes at least one event and
has at most eight steps. -/
def fuel (s : State) : Nat := 8 * s.queue.length + 64

/-- Lets an activity run until it has to wait. -/
def poll (s : State) (me : ActivityId) : State := s.advance me s.fuel

/-- Cuts an activity off. -/
def cancel (s : State) (me : ActivityId) : State :=
  match s.activity? me with
  | some (.loop l _) => (l.cancel s me).close me .cancelled
  | some (.flush cycle) => (cycle.cancel s me).close me .cancelled
  | some (.shutdown d) => (d.cancel s me).close me .cancelled
  | _ => s

/-- Whether an activity has something to do. -/
def isReady (s : State) (me : ActivityId) : Bool := (s.step? me).isSome

/-- When a waiting activity can go on by itself. -/
def deadline (s : State) (me : ActivityId) : Option Nat :=
  match s.activity? me with
  | some (.loop (.parked tick) _) => some tick
  | some (.loop (.flushing _ cycle) _) => cycle.deadline s.settings.deliveryTimeout
  | some (.flush cycle) => cycle.deadline s.settings.deliveryTimeout
  | some (.shutdown (.joining _ deadline)) => some deadline
  | some (.shutdown (.flushing cycle _ _)) => cycle.deadline s.settings.deliveryTimeout
  | _ => none

/-- The times at which activities can go on by themselves. -/
def deadlines (s : State) : List Nat :=
  (List.range s.activities.length).filterMap s.deadline

end State

end EventRelay.Publisher
