import EventRelay.Guards
import EventRelay.Publisher
import EventRelay.Request.Operation

/-!
# The relay

A relay is what an application works with: the scopes of its requests, the guards and one publisher.
Guards send their events to the publisher, to a recording sink or to nobody. A run of a relay is a
sequence of actions of tasks, each of which names the scope it is taken in; everything that an
observer can see is kept in order.
-/

namespace EventRelay

open Request (Operation Reading Scope ScopeId Scopes)

/-- Where the guards send their events. -/
inductive Target
  /-- There is no sink. -/
  | none
  /-- The publisher. -/
  | publisher
  /-- A sink that records every event and accepts the first ones. -/
  | recorder (accepts : Nat)
  deriving DecidableEq, Repr

namespace Relay

/-- Something that an observer of a relay can see. -/
inductive Observation
  /-- An observation of the publisher. -/
  | publisher (o : Publisher.Observation)
  /-- A report of the boundary of a request. -/
  | request (n : Request.Notice)
  /-- A report of a guard. -/
  | guard (n : Guards.Notice)
  /-- An event that was offered to the recording sink. -/
  | recorded (e : Event)
  /-- A guard call ended. -/
  | emitted (scope : Option ScopeId) (call : Guards.Call) (outcome : EmitOutcome)
  deriving DecidableEq, Repr

/-- The log line of an observation that is a report. -/
def Observation.line? : Observation → Option Log.Line
  | .publisher (.notice n) => some n.line
  | .request n => some n.line
  | .guard n => some n.line
  | _ => none

end Relay

/-- The state of a relay. -/
structure Relay where
  /-- The publisher; its clock is the clock of the relay. -/
  publisher : Publisher.State
  /-- Where the guards send their events. -/
  target : Target := .publisher
  /-- How many events the recording sink has seen. -/
  recorded : Nat := 0
  /-- The state of all requests. -/
  scopes : Scopes := {}
  /-- The number of the next event. -/
  serial : Nat := 0
  /-- What an observer has seen, the latest first. -/
  history : List Relay.Observation := []

namespace Relay

/-- The time. -/
def now (r : Relay) : Nat := r.publisher.now

/-- Adds an observation. -/
def observe (r : Relay) (o : Observation) : Relay := { r with history := o :: r.history }

/-- Adds observations in order. -/
def observeAll (r : Relay) (os : List Observation) : Relay := os.foldl observe r

/-- Replaces the publisher and adds what is new in its history. -/
def setPublisher (r : Relay) (p : Publisher.State) : Relay :=
  let fresh := p.history.take (p.history.length - r.publisher.history.length)
  { r with publisher := p, history := fresh.map .publisher ++ r.history }

/-- Makes an empty scope. -/
def createScope (r : Relay) : Relay × ScopeId :=
  let (scopes, i) := r.scopes.create
  ({ r with scopes }, i)

/-- Replaces the state of a scope. -/
def setScope (r : Relay) (i : ScopeId) (s : Scope) : Relay := { r with scopes := r.scopes.put i s }

/-- An operation of a task that runs in the given scope, or in none. -/
def perform (r : Relay) (scope : Option ScopeId) (op : Operation) : Relay × Reading :=
  let (scopes, reading) := r.scopes.perform scope op
  let notices := if scope.isNone then op.outsideNotices else []
  ({ r with scopes }.observeAll (notices.map .request), reading)

/-- The beginning of a request in a scope: the scope is cleared and gets the correlation that the
headers carry. -/
def beginRequest (r : Relay) (i : ScopeId) (names : Request.HeaderNames)
    (headers : Request.Headers) : Relay :=
  let (correlation, notices) := headers.extract names
  let r := (r.observeAll (notices.map .request)).setScope i (.opened correlation)
  r.observe (.request (.opened correlation))

/-- The end of a request: its scope is cleared. -/
def endRequest (r : Relay) (i : ScopeId) : Relay :=
  (r.setScope i .cleared).observe (.request .closed)

/-- Offers an event to the sink of the guards. -/
def offer (r : Relay) (e : Event) : Relay × Bool :=
  match r.target with
  | .none => (r, false)
  | .publisher =>
    let (p, accepted) := r.publisher.offer e
    (r.setPublisher p, accepted)
  | .recorder accepts =>
    ({ r with recorded := r.recorded + 1 }.observe (.recorded e), r.recorded < accepts)

/-- Calls a guard in a scope, or in none. A guard never waits, and neither does the offer that it
makes: no other task acts between the claim of the slot and the answer of the sink. -/
def emit (r : Relay) (scope : Option ScopeId) (call : Guards.Call) : Relay × EmitOutcome :=
  let ruling := Guards.judge call (r.scopes.seen scope) (r.target ≠ .none) ⟨r.serial⟩ ⟨r.now⟩
  let r :=
    match scope, ruling.claims with
    | some i, some claims => r.setScope i { r.scopes.get i with claims }
    | _, _ => r
  let r := r.observeAll (ruling.notices.map .guard)
  match ruling.decision with
  | .over outcome => (r.observe (.emitted scope call outcome), outcome)
  | .offer e =>
    let (r, accepted) := { r with serial := r.serial + 1 }.offer e
    let (outcome, notice) := Guards.conclude e accepted
    ((r.observe (.guard notice)).observe (.emitted scope call outcome), outcome)

/-- What can happen to a relay. -/
inductive Action
  /-- A scope is made. -/
  | create
  /-- A task works with its scope. -/
  | perform (scope : Option ScopeId) (op : Operation)
  /-- A task calls a guard. -/
  | emit (scope : Option ScopeId) (call : Guards.Call)
  /-- A request begins in a scope. -/
  | begin (scope : ScopeId) (names : Request.HeaderNames) (headers : Request.Headers)
  /-- A request ends. -/
  | finish (scope : ScopeId)
  /-- A scope is cleared by somebody who holds it. -/
  | clear (scope : ScopeId)
  /-- Something happens to the publisher. -/
  | publisher (a : Publisher.Action)
  deriving DecidableEq, Repr

/-- The relay after an action. -/
def apply (r : Relay) : Action → Relay
  | .create => r.createScope.1
  | .perform scope op => (r.perform scope op).1
  | .emit scope call => (r.emit scope call).1
  | .begin scope names headers => r.beginRequest scope names headers
  | .finish scope => r.endRequest scope
  | .clear scope => r.setScope scope .cleared
  | .publisher a => r.setPublisher (r.publisher.apply a)

/-- The relay after a sequence of actions. -/
def run (r : Relay) (actions : List Action) : Relay := actions.foldl apply r

@[simp] theorem scopes_observe (r : Relay) (o : Observation) :
    (r.observe o).scopes = r.scopes := rfl

@[simp] theorem scopes_observeAll (r : Relay) (os : List Observation) :
    (r.observeAll os).scopes = r.scopes := by
  induction os generalizing r with
  | nil => rfl
  | cons o rest ih => exact ih (r.observe o)

@[simp] theorem scopes_setPublisher (r : Relay) (p : Publisher.State) :
    (r.setPublisher p).scopes = r.scopes := rfl

end Relay

end EventRelay
