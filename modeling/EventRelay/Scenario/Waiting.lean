import EventRelay.Scenario.World

/-!
# What tasks wait for

A task can go on when one of the steps that it has under way can. A step that has let others run,
or that waits for calm, is not ready by itself. Cutting a task off cuts off everything that it has
under way, the inner parts first.
-/

namespace EventRelay.Scenario

/-- Whether a task has ended. -/
def World.hasEnded (w : World) (t : TaskId) : Bool :=
  match w.tasks[t]? with
  | some ⟨_, .ended _ _⟩ => true
  | _ => false

mutual

/-- Whether a step under way can go on. -/
def Running.isReady (w : World) : Running → Bool
  | .sleeping t => t ≤ w.now
  | .yielded => false
  | .hanging => false
  | .advancing t => t ≤ w.now
  | .calming => false
  | .flushing i => w.publisher.isEnded i || w.publisher.isReady i
  | .stopping i => w.publisher.isEnded i || w.publisher.isReady i
  | .joining t _ => w.hasEnded t
  | .inRequest _ body => body.isReady w
  | .inScope _ body => body.isReady w
  | .limited deadline body => deadline ≤ w.now || body.isReady w
  | .interleaved bodies => anyReady w bodies
  | .settling _ => false

/-- Whether a thread can go on. -/
def Thread.isReady (w : World) : Thread → Bool
  | .idle _ _ => false
  | .busy _ _ _ r => r.isReady w

/-- Whether one of several threads can go on. -/
def anyReady (w : World) : List Thread → Bool
  | [] => false
  | t :: rest => t.isReady w || anyReady w rest

end

mutual

/-- The times for which a step waits. -/
def Running.deadlines : Running → List Nat
  | .sleeping t => [t]
  | .advancing t => [t]
  | .inRequest _ body => body.deadlines
  | .inScope _ body => body.deadlines
  | .limited deadline body => deadline :: body.deadlines
  | .interleaved bodies => allDeadlines bodies
  | _ => []

/-- The times for which a thread waits. -/
def Thread.deadlines : Thread → List Nat
  | .idle _ _ => []
  | .busy _ _ _ r => r.deadlines

/-- The times for which several threads wait. -/
def allDeadlines : List Thread → List Nat
  | [] => []
  | t :: rest => t.deadlines ++ allDeadlines rest

end

mutual

/-- Cuts off a step under way. -/
def Running.cancel (w : World) : Running → World
  | .flushing i => w.setPublisher (w.publisher.apply (.cancel i))
  | .stopping i => w.setPublisher (w.publisher.apply (.cancel i))
  | .inRequest scope body => (body.cancel w).endRequest scope
  | .inScope _ body => body.cancel w
  | .limited _ body => body.cancel w
  | .interleaved bodies => cancelAll w bodies
  | _ => w

/-- Cuts off a thread. -/
def Thread.cancel (w : World) : Thread → World
  | .idle _ _ => w
  | .busy _ _ _ r => r.cancel w

/-- Cuts off several threads in order. -/
def cancelAll (w : World) : List Thread → World
  | [] => w
  | t :: rest => cancelAll (t.cancel w) rest

end

namespace World

/-- Whether a task can go on. -/
def taskReady (w : World) (t : TaskId) : Bool :=
  match w.tasks[t]? with
  | some ⟨_, .loop i⟩ => w.publisher.isReady i
  | some ⟨_, .thread body⟩ => body.isReady w
  | _ => false

/-- Lets a task run soon; the first task has a place of its own. -/
def schedule (w : World) (t : TaskId) : World :=
  if t = 0 then { w with mainReady := true }
  else if w.queue.contains t then w
  else { w with queue := w.queue ++ [t] }

/-- Lets every task run soon that can go on, the running one apart. -/
def wake (w : World) (running : Option TaskId) : World :=
  (List.range w.tasks.length).foldl
    (fun v t => if some t ≠ running && w.taskReady t then v.schedule t else v) w

/-- Starts a task. -/
def addTask (w : World) (task : Task) : World × TaskId :=
  let t := w.tasks.length
  ({ w with tasks := w.tasks ++ [task] }.schedule t, t)

/-- The next time for which anything waits. -/
def nextDeadline (w : World) : Option Nat :=
  let ofTask (task : Task) : List Nat :=
    match task.body with
    | .thread body => body.deadlines
    | _ => []
  ((w.publisher.deadlines ++ w.tasks.flatMap ofTask).filter (w.now < ·)).min?

end World

end EventRelay.Scenario
