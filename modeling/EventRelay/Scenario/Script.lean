import EventRelay.Relay

/-!
# Scripts of scenarios

A scenario plays steps of an application against a publisher on a virtual clock. Steps work on
requests and their state, call guards, drive the publisher, start tasks and wait. Every step has an
answer, and with it goes what could be observed since the last look.
-/

namespace EventRelay.Scenario

/-- A step of an application. -/
inductive Step
  /-- Runs steps as one request with a scope of its own. -/
  | request (headers : List (String × List UInt8)) (names : Request.HeaderNames) (body : List Step)
  /-- Runs steps in a named scope. -/
  | scope (name : String) (body : List Step)
  /-- Runs steps in a named scope without waiting; they are dropped where they would have to. -/
  | scopeSync (name : String) (body : List Step)
  /-- Begins a request in the current scope and keeps it open under a name. -/
  | openRequest (name : String) (headers : List (String × List UInt8)) (names : Request.HeaderNames)
  /-- Ends a request that was kept open. -/
  | closeRequest (name : String)
  /-- Asks whether there is a current scope. -/
  | isActive
  /-- Gives the current scope a name. -/
  | capture (name : String)
  /-- Reads the correlation of a named scope. -/
  | scopeCorrelation (name : String)
  /-- Shows a named scope as logs do. -/
  | scopeDebug (name : String)
  /-- Clears a named scope. -/
  | scopeReset (name : String)
  /-- Starts a task, in the current scope unless it is bare; without a name its end is waited
  for. -/
  | spawn (name : Option String) (bare : Bool) (body : List Step)
  /-- Waits for the end of a named task. -/
  | join (name : String)
  /-- Keeps steps, bound to the current scope, under a name. -/
  | bind (name : String) (body : List Step)
  /-- Runs the steps that were kept under a name. -/
  | await (name : String)
  /-- Runs several lists of steps in turns. -/
  | interleave (bodies : List (List Step))
  /-- Runs steps and cuts them off after a time. -/
  | limit (millis : Nat) (body : List Step)
  /-- Lets others run once. -/
  | yield
  /-- Waits. -/
  | sleep (millis : Nat)
  /-- Waits for ever. -/
  | hang
  /-- Breaks the task down. -/
  | panic
  /-- Waits and lets everything that is due run. -/
  | advance (millis : Nat)
  /-- Works with the state of the current scope. -/
  | scoped (op : Request.Operation)
  /-- Calls a guard. -/
  | emit (call : Guards.Call)
  /-- Shows the guards as logs do. -/
  | guardsDebug
  /-- Offers events to the publisher. -/
  | enqueue (count : Nat)
  /-- Starts the publisher. -/
  | start (runtime : Bool)
  /-- Flushes the publisher once. -/
  | flush
  /-- Stops the publisher. -/
  | stop
  /-- Reads the state of the publisher. -/
  | publisher
  /-- A step with an argument that is refused. -/
  | refuse (e : EventError)

/-- A look at a publisher. -/
structure PublisherView where
  /-- The phase. -/
  phase : Publisher.Phase
  /-- Whether events can be accepted at all. -/
  enabled : Bool
  /-- The number of queued events. -/
  queue : Nat
  /-- The counters. -/
  stats : Publisher.Stats
  /-- The publisher as logs show it. -/
  debug : String
  deriving Repr

/-- A batch that the collector has seen. -/
structure Delivery where
  /-- When it was handed over, in milliseconds. -/
  time : Nat
  /-- The batch. -/
  batch : Envelope
  deriving DecidableEq, Repr

mutual

/-- The answer of a step. -/
inductive Answer
  /-- Nothing to tell. -/
  | done
  /-- The results of steps inside. -/
  | steps (rs : List Result)
  /-- The same, and whether they came to their end. -/
  | attempted (complete : Bool) (rs : List Result)
  /-- The correlation of a request that was opened, if there was a scope. -/
  | opened (c : Option Correlation)
  /-- Whether there was a request to close. -/
  | closed (found : Bool)
  /-- Whether there is a current scope. -/
  | active (yes : Bool)
  /-- Whether there was a scope to name. -/
  | captured (yes : Bool)
  /-- A correlation. -/
  | correlation (c : Correlation)
  /-- A text as logs show it. -/
  | debug (text : String)
  /-- The end of a task. -/
  | joined (broken : Bool) (rs : List Result) (now : Nat)
  /-- There is no such task. -/
  | notJoined
  /-- There are no such steps. -/
  | notFound
  /-- The results of steps in turns. -/
  | bodies (rss : List (List Result))
  /-- The end of steps with a limit. -/
  | limited (cutOff : Bool) (rs : List Result) (now : Nat)
  /-- The time. -/
  | time (now : Nat)
  /-- The length of the queue and the time. -/
  | advanced (queue now : Nat)
  /-- What an operation on the current scope told. -/
  | read (r : Request.Reading)
  /-- The outcome of a guard call. -/
  | emitted (o : EmitOutcome)
  /-- Which events were taken, and the length of the queue. -/
  | took (verdicts : List Bool) (queue : Nat)
  /-- The phase of the publisher. -/
  | phase (p : Publisher.Phase)
  /-- The publisher refused. -/
  | refused (e : PublisherError)
  /-- The outcome of a flush. -/
  | flushed (o : Publisher.Outcome) (queue now : Nat)
  /-- The end of a shutdown. -/
  | stopped (p : Publisher.Phase) (queue now : Nat)
  /-- The state of the publisher. -/
  | publisher (v : PublisherView)
  /-- Headers that are not legal. -/
  | badHeaders
  /-- An argument that was refused. -/
  | fault (e : EventError)

/-- The answer of a step with what was observed since the last look. -/
inductive Result
  /-- Attempts of deliveries, events offered to a recording sink, and log lines, all in order. -/
  | mk (answer : Answer) (deliveries : List Delivery) (sunk : List Event) (logs : List Log.Line)

end

instance : Inhabited Step := ⟨.isActive⟩

instance : Inhabited Answer := ⟨.done⟩

end EventRelay.Scenario
