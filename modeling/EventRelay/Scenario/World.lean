import EventRelay.Scenario.Script

/-!
# The world of a scenario

The world holds the relay, what steps have put under names, and the tasks. A look tells what the
relay has shown since the last look: attempts of deliveries, events offered to the recording sink
and log lines.
-/

namespace EventRelay.Scenario

open Publisher (ActivityId)
open Request (ScopeId)

/-- Tasks are numbered in the order in which they are started; the first one is the scenario. -/
abbrev TaskId := Nat

mutual

/-- A step under way. -/
inductive Running
  /-- Waits for a time. -/
  | sleeping (wakeTime : Nat)
  /-- Has let others run. -/
  | yielded
  /-- Waits for ever. -/
  | hanging
  /-- Waits for a time and lets everything run that is due then. -/
  | advancing (wakeTime : Nat)
  /-- Lets everything run that is due now, and then reads the queue. -/
  | calming
  /-- Waits for a flush. -/
  | flushing (i : ActivityId)
  /-- Waits for a shutdown. -/
  | stopping (i : ActivityId)
  /-- Waits for a task; `named` if the step only waits. -/
  | joining (t : TaskId) (named : Bool)
  /-- Runs steps as a request. -/
  | inRequest (scope : ScopeId) (body : Thread)
  /-- Runs steps in a scope. -/
  | inScope (scope : Option ScopeId) (body : Thread)
  /-- Runs steps up to a deadline. -/
  | limited (deadline : Nat) (body : Thread)
  /-- Runs several lists of steps in turns. -/
  | interleaved (bodies : List Thread)
  /-- Has its answer and lets everything run that is due now. -/
  | settling (a : Answer)

/-- A list of steps being played; results are kept with the latest first. -/
inductive Thread
  /-- Between two steps. -/
  | idle (todo : List Step) (done : List Result)
  /-- In the middle of a step that began at a time. -/
  | busy (todo : List Step) (done : List Result) (began : Nat) (step : Running)

end

instance : Inhabited Thread := ⟨.idle [] []⟩

/-- The results so far. -/
def Thread.results : Thread → List Result
  | .idle _ done => done.reverse
  | .busy _ done _ _ => done.reverse

/-- What a task does. -/
inductive TaskBody
  /-- It runs the flush loop. -/
  | loop (i : ActivityId)
  /-- It plays steps. -/
  | thread (t : Thread)
  /-- It has ended, perhaps by breaking down. -/
  | ended (broken : Bool) (rs : List Result)

/-- A task. -/
structure Task where
  /-- The scope it was started with. -/
  scope : Option ScopeId
  /-- What it does. -/
  body : TaskBody

/-- The world of a scenario. -/
structure World where
  /-- The relay; its clock is the clock of the world. -/
  relay : Relay
  /-- Scopes with names. -/
  named : List (String × ScopeId) := []
  /-- Requests that are kept open. -/
  openRequests : List (String × ScopeId) := []
  /-- Steps that are kept for later, with the scope they are bound to. -/
  bound : List (String × Option ScopeId × List Step) := []
  /-- Tasks with names that nobody has waited for. -/
  handles : List (String × TaskId) := []
  /-- All tasks, by number. -/
  tasks : List Task := []
  /-- Tasks that are about to run, in order; the first task is never among them. -/
  queue : List TaskId := []
  /-- The first task is about to run. -/
  mainReady : Bool := true
  /-- Tasks that have let others run. -/
  deferred : List TaskId := []
  /-- Tasks that wait until nothing else is to be done, in order. -/
  settling : List TaskId := []
  /-- Nothing else is to be done at this time. -/
  calm : Bool := false
  /-- Nothing has run since the clock or the deferred tasks were looked at. -/
  fresh : Bool := true
  /-- How many observations have been looked at. -/
  seen : Nat := 0

namespace World

/-- The time. -/
def now (w : World) : Nat := w.relay.now

/-- The publisher. -/
def publisher (w : World) : Publisher.State := w.relay.publisher

/-- Replaces the publisher. -/
def setPublisher (w : World) (p : Publisher.State) : World :=
  { w with relay := w.relay.setPublisher p }

/-- The attempts of deliveries among observations. -/
def deliveriesOf (os : List Relay.Observation) : List Delivery :=
  os.filterMap fun
    | .publisher (.handed _ time batch _) => some ⟨time, batch⟩
    | _ => none

/-- The events offered to the recording sink among observations. -/
def recordedOf (os : List Relay.Observation) : List Event :=
  os.filterMap fun
    | .recorded e => some e
    | _ => none

/-- What was observed since the last look, attached to an answer. -/
def look (w : World) (a : Answer) : World × Result :=
  let fresh := (w.relay.history.take (w.relay.history.length - w.seen)).reverse
  ({ w with seen := w.relay.history.length },
    .mk a (deliveriesOf fresh) (recordedOf fresh) (fresh.filterMap Relay.Observation.line?))

/-- Sets the value of a name. -/
def assign {α : Type} (name : String) (value : α) (entries : List (String × α)) :
    List (String × α) :=
  (name, value) :: entries.filter (·.1 ≠ name)

/-- Removes a name. -/
def unassign {α : Type} (name : String) (entries : List (String × α)) : List (String × α) :=
  entries.filter (·.1 ≠ name)

/-- The scope with a name; it is made if there is none. -/
def scopeNamed (w : World) (name : String) : World × ScopeId :=
  match w.named.lookup name with
  | some i => (w, i)
  | none =>
    let (relay, i) := w.relay.createScope
    ({ w with relay, named := assign name i w.named }, i)

/-- The state of a scope. -/
def scope (w : World) (i : ScopeId) : Request.Scope := w.relay.scopes.get i

/-- Begins a request in a scope. -/
def beginRequest (w : World) (i : ScopeId) (names : Request.HeaderNames)
    (headers : Request.Headers) : World :=
  { w with relay := w.relay.beginRequest i names headers }

/-- Ends a request. -/
def endRequest (w : World) (i : ScopeId) : World := { w with relay := w.relay.endRequest i }

/-- The events that the enqueue step offers. -/
def sampleEvent (serial : Nat) (now : Nat) : Event where
  id := ⟨serial⟩
  trace := "t"
  conversation := none
  turn := none
  user := "u"
  dept := "d"
  occurredAt := ⟨now⟩
  payload := .security ⟨⟨"pii", by decide⟩, true, ⟨"r", by decide⟩⟩

/-- A look at the publisher. -/
def publisherView (w : World) : PublisherView where
  phase := w.publisher.phase
  enabled := w.publisher.enabled
  queue := w.publisher.queueLength
  stats := w.publisher.stats
  debug := w.publisher.debug

end World

end EventRelay.Scenario
