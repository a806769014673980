import EventRelay.Scenario.Play

/-!
# Running scenarios

One task runs at a time. Tasks that were woken run in the order in which they were woken; after a
look at the clock the scenario itself comes first, and otherwise it runs when nobody else is about
to. Tasks that have let others run go on when the rest has run. When nothing is to be done, tasks
that wait for calm go on one by one, and then the clock jumps to the next time that anything waits
for.
-/

namespace EventRelay.Scenario

/-- A scenario. -/
structure Setup where
  /-- The relay at the start. -/
  relay : Relay
  /-- The steps. -/
  steps : List Step

namespace World

/-- The world at the start. -/
def initial (s : Setup) : World where
  relay := s.relay
  tasks := [⟨none, .thread (.idle s.steps [])⟩]

/-- Whether the scenario has come to its end. -/
def isOver (w : World) : Bool := w.hasEnded 0

/-- Replaces what a task does. -/
def setTask (w : World) (t : TaskId) (body : TaskBody) : World :=
  { w with tasks := w.tasks.modify t fun task => { task with body } }

/-- Runs a task until it has to wait. -/
def runTask (fuel : Nat) (w : World) (t : TaskId) : World :=
  match w.tasks[t]? with
  | some ⟨_, .loop i⟩ =>
    let w := w.setPublisher (w.publisher.poll i)
    let w := if w.publisher.isEnded i then w.setTask t (.ended false []) else w
    w.wake none
  | some ⟨scope, .thread body⟩ =>
    match Thread.play fuel w { task := t, scope } body with
    | (w, .waits body) => (w.setTask t (.thread body)).wake none
    | (w, .ready rs) => (w.setTask t (.ended false rs)).wake none
    | (w, .broken rs) => (w.setTask t (.ended true rs)).wake none
  | _ => w

/-- The clock jumps to a time. -/
def jump (w : World) (time : Nat) : World :=
  (w.setPublisher (w.publisher.elapse (time - w.now))).wake none

/-- One turn: a task runs, or the next ones are found. `none` if nothing can ever happen again. -/
def turn? (fuel : Nat) (w : World) : Option World :=
  if w.fresh && w.mainReady then
    some ({ w with mainReady := false, fresh := false }.runTask fuel 0)
  else
    match w.queue with
    | t :: rest => some ({ w with queue := rest, fresh := false }.runTask fuel t)
    | [] =>
      let w := { w with fresh := true }
      match w.deferred with
      | _ :: _ => some (w.deferred.foldl schedule { w with deferred := [] })
      | [] =>
        if w.mainReady then some w
        else
          match w.settling with
          | t :: rest =>
            let w := { w with settling := rest, calm := true }.runTask fuel t
            some { w with calm := false }
          | [] => w.nextDeadline.map w.jump

/-- Turns until the scenario is over, at most `turns` of them. -/
def runFor (fuel : Nat) : Nat → World → World
  | 0, w => w
  | turns + 1, w =>
    if w.isOver then w
    else
      match w.turn? fuel with
      | none => w
      | some w => runFor fuel turns w

end World

mutual

/-- The number of steps in a step, itself included. -/
def Step.size : Step → Nat
  | .request _ _ body => 1 + sizes body
  | .scope _ body => 1 + sizes body
  | .scopeSync _ body => 1 + sizes body
  | .spawn _ _ body => 1 + sizes body
  | .bind _ body => 1 + sizes body
  | .interleave bodies => 1 + sizesAll bodies
  | .limit _ body => 1 + sizes body
  | _ => 1

/-- The number of steps in a list. -/
def sizes : List Step → Nat
  | [] => 0
  | s :: rest => s.size + sizes rest

/-- The number of steps in several lists. -/
def sizesAll : List (List Step) → Nat
  | [] => 0
  | body :: rest => 1 + sizes body + sizesAll rest

end

mutual

/-- The time that a step waits by itself. -/
def Step.patience : Step → Nat
  | .request _ _ body => patiences body
  | .scope _ body => patiences body
  | .scopeSync _ body => patiences body
  | .spawn _ _ body => patiences body
  | .bind _ body => patiences body
  | .interleave bodies => patiencesAll bodies
  | .limit millis body => millis + patiences body
  | .sleep millis => millis
  | .advance millis => millis
  | _ => 0

/-- The time that steps wait by themselves. -/
def patiences : List Step → Nat
  | [] => 0
  | s :: rest => s.patience + patiences rest

/-- The time that several lists of steps wait by themselves. -/
def patiencesAll : List (List Step) → Nat
  | [] => 0
  | body :: rest => patiences body + patiencesAll rest

end

namespace Setup

/-- How deep the steps can take the player. -/
def depth (s : Setup) : Nat := 8 * sizes s.steps + 64

/-- The longest time that a run can take: what the steps wait for, and for each step all timeouts of
the publisher. -/
def horizon (s : Setup) : Nat :=
  let settings := s.relay.publisher.settings
  patiences s.steps + (sizes s.steps + 1) *
    (2 * settings.deliveryTimeout + settings.retryDelay + settings.shutdownTimeout)

/-- The number of turns that a run is given. -/
def turns (s : Setup) : Nat := 64 * (s.horizon + sizes s.steps + 16)

/-- Plays the scenario to its end. -/
def run (s : Setup) : World := (World.initial s).runFor s.depth s.turns

end Setup

/-- The results of a scenario. -/
def World.results (w : World) : List Result :=
  match w.tasks.head? with
  | some ⟨_, .ended _ rs⟩ => rs
  | some ⟨_, .thread t⟩ => t.results
  | _ => []

end EventRelay.Scenario
