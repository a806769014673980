import EventRelay.Scenario.Waiting

/-!
# Playing steps

A task plays its steps one after the other until one has to wait. A step that took time, and one
that waits for others, gets its observations only when everything that is due has run. A step that
breaks down takes its task with it; what the steps around it had under way is cut off on the way
out.
-/

namespace EventRelay.Scenario

open Request (ScopeId)

/-- Where a step is played. -/
structure Place where
  /-- The task. -/
  task : TaskId
  /-- The current scope. -/
  scope : Option ScopeId
  /-- Whether the task may wait here. -/
  mayWait : Bool := true

/-- How far a thread came. -/
inductive Progress
  /-- It waits. -/
  | waits (t : Thread)
  /-- It is at its end. -/
  | ready (rs : List Result)
  /-- It broke down after these results. -/
  | broken (rs : List Result)

/-- How far a step under way came. -/
inductive StepProgress
  /-- It waits. -/
  | waits (r : Running)
  /-- It has its answer. -/
  | answered (a : Answer)
  /-- It has its answer and everything that is due has run. -/
  | settled (a : Answer)
  /-- It broke down. -/
  | broken

/-- How a step begins. -/
inductive Beginning
  /-- It has its answer at once. -/
  | answered (a : Answer)
  /-- It is under way. -/
  | started (r : Running)
  /-- It broke down. -/
  | broken

namespace World

/-- Offers `count` events to the publisher. -/
def enqueue (w : World) (running : TaskId) : Nat → World × List Bool
  | 0 => (w, [])
  | count + 1 =>
    let serial := w.relay.serial
    let (p, accepted) := w.publisher.offer (sampleEvent serial w.now)
    let relay := { w.relay with serial := serial + 1 }.setPublisher p
    let w := { w with relay }.wake (some running)
    let (w, verdicts) := enqueue w running count
    (w, accepted :: verdicts)

/-- Starts the publisher; its loop becomes a task. -/
def start (w : World) (runtime : Bool) : World × Answer :=
  let i := w.publisher.activities.length
  let (p, answer) := w.publisher.start runtime
  let w := w.setPublisher p
  let w := if i < p.activities.length then (w.addTask ⟨none, .loop i⟩).1 else w
  match answer with
  | .ok _ => (w, .phase w.publisher.phase)
  | .error e => (w, .refused e)

/-- Starts a task that plays steps. -/
def spawn (w : World) (scope : Option ScopeId) (body : List Step) : World × TaskId :=
  w.addTask ⟨scope, .thread (.idle body [])⟩

/-- Takes the steps that are kept under a name. -/
def takeBound (w : World) (name : String) : World × Option (Option ScopeId × List Step) :=
  ({ w with bound := unassign name w.bound }, w.bound.lookup name)

/-- Takes a task that was given a name. -/
def takeHandle (w : World) (name : String) : World × Option TaskId :=
  ({ w with handles := unassign name w.handles }, w.handles.lookup name)

/-- Begins a step that may wait. -/
def begin (w : World) (place : Place) : Step → World × Beginning
  | .request headers names body =>
    match Request.Headers.ofList? headers with
    | none => (w, .answered .badHeaders)
    | some headers =>
      let (relay, i) := w.relay.createScope
      ({ w with relay }.beginRequest i names headers, .started (.inRequest i (.idle body [])))
  | .scope name body =>
    let (w, i) := w.scopeNamed name
    (w, .started (.inScope (some i) (.idle body [])))
  | .openRequest name headers names =>
    match Request.Headers.ofList? headers with
    | none => (w, .answered .badHeaders)
    | some headers =>
      match place.scope with
      | none => (w, .answered (.opened none))
      | some i =>
        let before := w.openRequests.lookup name
        let w := w.beginRequest i names headers
        let correlation := (w.scope i).correlation
        let w := { w with openRequests := assign name i w.openRequests }
        let w := match before with
          | none => w
          | some j => w.endRequest j
        (w, .answered (.opened (some correlation)))
  | .closeRequest name =>
    match w.openRequests.lookup name with
    | none => (w, .answered (.closed false))
    | some i =>
      let w := { w with openRequests := unassign name w.openRequests }
      (w.endRequest i, .answered (.closed true))
  | .isActive => (w, .answered (.active place.scope.isSome))
  | .capture name =>
    match place.scope with
    | none => (w, .answered (.captured false))
    | some i => ({ w with named := assign name i w.named }, .answered (.captured true))
  | .scopeCorrelation name =>
    let (w, i) := w.scopeNamed name
    (w, .answered (.correlation (w.scope i).correlation))
  | .scopeDebug name =>
    let (w, i) := w.scopeNamed name
    (w, .answered (.debug (w.scope i).debug))
  | .scopeReset name =>
    let (w, i) := w.scopeNamed name
    ({ w with relay := w.relay.setScope i .cleared }, .answered .done)
  | .spawn name bare body =>
    let (w, t) := w.spawn (if bare then none else place.scope) body
    match name with
    | none => (w, .started (.joining t false))
    | some name => ({ w with handles := assign name t w.handles }, .answered .done)
  | .join name =>
    match w.takeHandle name with
    | (w, none) => (w, .answered .notJoined)
    | (w, some t) => (w, .started (.joining t true))
  | .bind name body =>
    ({ w with bound := assign name (place.scope, body) w.bound }, .answered .done)
  | .await name =>
    match w.takeBound name with
    | (w, none) => (w, .answered .notFound)
    | (w, some (scope, body)) => (w, .started (.inScope (scope.or place.scope) (.idle body [])))
  | .interleave bodies => (w, .started (.interleaved (bodies.map (.idle · []))))
  | .limit millis body => (w, .started (.limited (w.now + millis) (.idle body [])))
  | .yield => (w, .started .yielded)
  | .sleep millis => (w, .started (.sleeping (w.now + millis)))
  | .hang => (w, .started .hanging)
  | .panic => (w, .broken)
  | .advance millis => (w, .started (.advancing (w.now + millis)))
  | .scoped op =>
    let (relay, reading) := w.relay.perform place.scope op
    ({ w with relay }, .answered (.read reading))
  | .emit call =>
    let (relay, outcome) := w.relay.emit place.scope call
    ({ w with relay }.wake (some place.task), .answered (.emitted outcome))
  | .guardsDebug =>
    (w, .answered (.debug ("EmissionGuards \x7b has_sink: " ++
      Settings.debugBool (w.relay.target ≠ .none) ++ " \x7d")))
  | .enqueue count =>
    let (w, verdicts) := w.enqueue place.task count
    (w, .answered (.took verdicts w.publisher.queueLength))
  | .start runtime =>
    let (w, a) := w.start runtime
    (w, .answered a)
  | .flush =>
    let i := w.publisher.activities.length
    (w.setPublisher w.publisher.callFlush, .started (.flushing i))
  | .stop =>
    let i := w.publisher.activities.length
    (w.setPublisher w.publisher.callShutdown, .started (.stopping i))
  | .publisher => (w, .answered (.publisher w.publisherView))
  | .refuse e => (w, .answered (.fault e))
  | .scopeSync .. => (w, .answered .done)

/-- What a flush call came to. -/
def afterFlush (w : World) (i : Publisher.ActivityId) : StepProgress :=
  match w.publisher.activity? i with
  | some (.ended (.flushed o)) => .answered (.flushed o w.publisher.queueLength w.now)
  | some (.ended _) => .broken
  | _ => .waits (.flushing i)

/-- What a shutdown call came to. -/
def afterStop (w : World) (i : Publisher.ActivityId) : StepProgress :=
  match w.publisher.activity? i with
  | some (.ended .stopped) =>
    .answered (.stopped w.publisher.phase w.publisher.queueLength w.now)
  | some (.ended _) => .broken
  | _ => .waits (.stopping i)

/-- What a task that is waited for came to. -/
def afterJoin (w : World) (t : TaskId) (named : Bool) : StepProgress :=
  match w.tasks[t]? with
  | some ⟨_, .ended broken rs⟩ => .answered (.joined broken rs w.now)
  | _ => .waits (.joining t named)

/-- A task lets others run once. -/
def defer (w : World) (place : Place) : World :=
  if place.mayWait && !w.deferred.contains place.task then
    { w with deferred := w.deferred ++ [place.task] }
  else w

/-- A task waits until nothing else is to be done. -/
def awaitCalm (w : World) (place : Place) : World :=
  if place.mayWait then { w with settling := w.settling ++ [place.task] } else w

/-- Whether an answer is observed only when everything that is due has run. -/
def settlesAlways : Running → Bool
  | .joining _ named => named
  | _ => false

end World

mutual

/-- Plays a thread until it has to wait. Every call takes one step of the script or goes one level
into it, which bounds the fuel. -/
def Thread.play : Nat → World → Place → Thread → World × Progress
  | 0, w, _, t => (w, .waits t)
  | _ + 1, w, _, .idle [] done => (w, .ready done.reverse)
  | fuel + 1, w, place, .idle (.scopeSync name body :: todo) done =>
    let (w, i) := w.scopeNamed name
    let inside : Place := { place with scope := some i, mayWait := false }
    let (w, a) : World × Option Answer :=
      match Thread.play fuel w inside (.idle body []) with
      | (w, .ready rs) => (w, some (.attempted true rs))
      | (w, .waits t) => (t.cancel w, some (.attempted false t.results))
      | (w, .broken _) => (w, none)
    let w := w.wake (some place.task)
    match a with
    | none => (w, .broken done.reverse)
    | some a =>
      let (w, r) := w.look a
      Thread.play fuel w place (.idle todo (r :: done))
  | fuel + 1, w, place, .idle (step :: todo) done =>
    match w.begin place step with
    | (w, .answered a) =>
      let (w, r) := w.look a
      Thread.play fuel w place (.idle todo (r :: done))
    | (w, .broken) => (w, .broken done.reverse)
    | (w, .started .yielded) =>
      (w.defer place, .waits (.busy todo done w.now .yielded))
    | (w, .started r) => Thread.play fuel w place (.busy todo done w.now r)
  | fuel + 1, w, place, .busy todo done began step =>
    match Running.play fuel w place step with
    | (w, .waits r) => (w, .waits (.busy todo done began r))
    | (w, .broken) => (w, .broken done.reverse)
    | (w, .settled a) =>
      let (w, r) := w.look a
      Thread.play fuel w place (.idle todo (r :: done))
    | (w, .answered a) =>
      if began ≠ w.now || World.settlesAlways step then
        (w.awaitCalm place, .waits (.busy todo done began (.settling a)))
      else
        let (w, r) := w.look a
        Thread.play fuel w place (.idle todo (r :: done))

/-- Plays a step under way until it has to wait. -/
def Running.play : Nat → World → Place → Running → World × StepProgress
  | 0, w, _, r => (w, .waits r)
  | fuel + 1, w, place, r =>
    match r with
    | .sleeping t => (w, if t ≤ w.now then .answered (.time w.now) else .waits r)
    | .yielded => (w, .answered .done)
    | .hanging => (w, .waits r)
    | .advancing t =>
      if t ≤ w.now then (w.awaitCalm place, .waits .calming) else (w, .waits r)
    | .calming =>
      if w.calm then
        ({ w with calm := false }, .settled (.advanced w.publisher.queueLength w.now))
      else (w, .waits r)
    | .settling a => if w.calm then ({ w with calm := false }, .settled a) else (w, .waits r)
    | .flushing i =>
      let w := (w.setPublisher (w.publisher.poll i)).wake (some place.task)
      (w, w.afterFlush i)
    | .stopping i =>
      let w := (w.setPublisher (w.publisher.poll i)).wake (some place.task)
      (w, w.afterStop i)
    | .joining t named => (w, w.afterJoin t named)
    | .inRequest i body =>
      match Thread.play fuel w { place with scope := some i } body with
      | (w, .waits body) => (w, .waits (.inRequest i body))
      | (w, .ready rs) => (w.endRequest i, .answered (.steps rs))
      | (w, .broken _) => (w.endRequest i, .broken)
    | .inScope i body =>
      match Thread.play fuel w { place with scope := i } body with
      | (w, .waits body) => (w, .waits (.inScope i body))
      | (w, .ready rs) => (w, .answered (.steps rs))
      | (w, .broken _) => (w, .broken)
    | .limited deadline body =>
      match Thread.play fuel w place body with
      | (w, .ready rs) => (w, .answered (.limited false rs w.now))
      | (w, .broken _) => (w, .broken)
      | (w, .waits body) =>
        if deadline ≤ w.now then
          ((body.cancel w).wake (some place.task), .answered (.limited true body.results w.now))
        else (w, .waits (.limited deadline body))
    | .interleaved bodies =>
      match playAll fuel w place bodies with
      | (w, none) => (w, .broken)
      | (w, some bodies) =>
        if bodies.all fun
          | .idle [] _ => true
          | _ => false
        then (w, .answered (.bodies (bodies.map Thread.results)))
        else (w, .waits (.interleaved bodies))

/-- Plays several threads, each until it has to wait; `none` if one breaks down, which cuts the
others off. -/
def playAll : Nat → World → Place → List Thread → World × Option (List Thread)
  | 0, w, _, ts => (w, some ts)
  | _ + 1, w, _, [] => (w, some [])
  | fuel + 1, w, place, t :: rest =>
    match Thread.play fuel w place t with
    | (w, .broken _) => (cancelAll w rest, none)
    | (w, .ready rs) =>
      match playAll fuel w place rest with
      | (w, none) => (w, none)
      | (w, some rest) => (w, some (.idle [] rs.reverse :: rest))
    | (w, .waits t) =>
      match playAll fuel w place rest with
      | (w, none) => (t.cancel w, none)
      | (w, some rest) => (w, some (t :: rest))

end

end EventRelay.Scenario
