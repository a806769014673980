import EventRelay.Proofs.Publisher.Run
import EventRelay.Proofs.Publisher.Steps

/-!
# The life of a publisher

Of starting and stopping only a part of the state matters: the phase, whether the publisher is
closed, the worker, and for each activity whether it is the loop, a shutdown that has begun, or has
ended. Every event of a run leaves this part as it is or makes one of a few moves. From the moves
alone follows what the phases promise: a closed publisher stays closed, a shutdown in progress is
the only one and knows every loop that lives, and without a phase that allows it no loop lives.
-/

namespace EventRelay.Publisher

open Relation

/-- An activity as far as starting and stopping are concerned. -/
inductive Part
  /-- The flush loop. -/
  | loop
  /-- A shutdown that has begun, and the loop that it waits for. -/
  | stopping (awaits : Option ActivityId)
  /-- A call that flushes. -/
  | flush
  /-- A shutdown that has not begun. -/
  | called
  /-- An activity that has ended. -/
  | ended (c : Closing)
  deriving DecidableEq, Repr

/-- The part of an activity. -/
def Activity.part : Activity → Part
  | .loop .. => .loop
  | .flush _ => .flush
  | .shutdown .called => .called
  | .shutdown (.joining worker _) => .stopping (some worker)
  | .shutdown (.cancelling worker) => .stopping (some worker)
  | .shutdown (.flushing ..) => .stopping none
  | .ended c => .ended c

/-- How an activity may end of its own accord or be ended. A shutdown that has begun returns only by
finishing, which is another matter. -/
def Part.mayEnd : Part → Closing → Bool
  | .loop, .exited => true
  | .flush, .flushed _ => true
  | .called, .stopped => true
  | .ended _, _ => false
  | _, .cancelled => true
  | _, .broken => true
  | _, _ => false

/-- Only an activity that has ended has an ended part. -/
theorem Activity.eq_ended_of_part {a : Activity} {c : Closing} (h : a.part = .ended c) :
    a = .ended c := by
  cases a with
  | loop l cancelled => contradiction
  | flush cycle => contradiction
  | shutdown d => cases d <;> contradiction
  | ended c' =>
    cases h
    rfl

/-- The life of a publisher. -/
structure Lifecycle where
  /-- The phase. -/
  phase : Phase
  /-- Nothing is accepted any more. -/
  closed : Bool
  /-- The loop, as long as no shutdown has taken charge of it. -/
  worker : Option ActivityId
  /-- All activities, by number. -/
  parts : List Part

/-- The life of the publisher in a state. -/
def State.lifecycle (s : State) : Lifecycle where
  phase := s.phase
  closed := s.closed
  worker := s.worker
  parts := s.activities.map Activity.part

namespace Lifecycle

/-- Changes the part of an activity. -/
def put (l : Lifecycle) (i : ActivityId) (p : Part) : Lifecycle :=
  { l with parts := l.parts.set i p }

/-- A part that stays as it is changes nothing. -/
theorem put_same {l : Lifecycle} {i : ActivityId} {p : Part} (h : l.parts[i]? = some p) :
    l.put i p = l := by
  obtain ⟨hi, rfl⟩ := List.getElem?_eq_some_iff.mp h
  simp only [put, List.set_getElem_self]

/-- How an activity moves. -/
inductive Move (me : ActivityId) : Lifecycle → Lifecycle → Prop
  /-- An activity ends. -/
  | leave {l : Lifecycle} {p : Part} {c : Closing} (entry : l.parts[me]? = some p)
    (ends : p.mayEnd c = true) : Move me l (l.put me (.ended c))
  /-- A shutdown begins. It closes the publisher and takes charge of the loop. -/
  | stop {l : Lifecycle} (entry : l.parts[me]? = some .called) (allowed : l.phase ≠ .stopping) :
    Move me l { l.put me (.stopping l.worker) with
      phase := .stopping, closed := true, worker := none }
  /-- The loop for which a shutdown waits has ended. -/
  | joined {l : Lifecycle} {loop : ActivityId} {c : Closing}
    (entry : l.parts[me]? = some (.stopping (some loop)))
    (gone : l.parts[loop]? = some (.ended c)) : Move me l (l.put me (.stopping none))
  /-- A shutdown returns. -/
  | finish {l : Lifecycle} (entry : l.parts[me]? = some (.stopping none)) :
    Move me l { l.put me (.ended .stopped) with
      phase := (l.phase.next? .finish).getD l.phase }

/-- What happens to the life of a publisher. -/
inductive Step : Lifecycle → Lifecycle → Prop
  /-- A call begins. -/
  | join {l : Lifecycle} {p : Part} (call : p = .flush ∨ p = .called) :
    Step l { l with parts := l.parts ++ [p] }
  /-- The loop is started. -/
  | launch {l : Lifecycle} (opened : l.closed = false) (allowed : l.phase = .stopped) :
    Step l { l with
      phase := .running, worker := some l.parts.length, parts := l.parts ++ [.loop] }
  /-- An activity moves. -/
  | move {l l' : Lifecycle} {me : ActivityId} (h : Move me l l') : Step l l'

section Move

variable {l l' : Lifecycle} {me i : ActivityId}

/-- Activities that move do not become more. -/
theorem Move.length_parts (move : Move me l l') : l'.parts.length = l.parts.length := by
  cases move <;> exact List.length_set

/-- An activity that moves leaves the others where they are. -/
theorem Move.others (move : Move me l l') (h : i ≠ me) : l'.parts[i]? = l.parts[i]? := by
  cases move <;> exact List.getElem?_set_ne (Ne.symm h)

end Move

end Lifecycle

namespace State

variable {s t : State} {me : ActivityId}

theorem lifecycle_report (s : State) (n : Notice) : (s.report n).lifecycle = s.lifecycle := rfl

theorem lifecycle_setActivity (s : State) (i : ActivityId) (a : Activity) :
    (s.setActivity i a).lifecycle = s.lifecycle.put i a.part := by
  simp only [lifecycle, setActivity, Lifecycle.put, List.map_set]

theorem lifecycle_addActivity (s : State) (a : Activity) :
    (s.addActivity a).lifecycle =
      { s.lifecycle with parts := s.lifecycle.parts ++ [a.part] } := by
  simp only [lifecycle, addActivity, List.map_append, List.map_cons, List.map_nil]

theorem getElem?_parts (s : State) (i : ActivityId) :
    s.lifecycle.parts[i]? = (s.activity? i).map Activity.part :=
  List.getElem?_map

/-- The part of an activity. -/
theorem part_of_activity {a : Activity} (h : s.activity? me = some a) :
    s.lifecycle.parts[me]? = some a.part := by
  rw [getElem?_parts, h, Option.map_some]

/-- An activity whose part has ended has ended. -/
theorem ended_of_part {c : Closing} (h : s.lifecycle.parts[me]? = some (.ended c)) :
    s.activity? me = some (.ended c) := by
  rw [getElem?_parts] at h
  obtain ⟨a, ha, hp⟩ := Option.map_eq_some_iff.mp h
  rw [ha, Activity.eq_ended_of_part hp]

/-- An activity whose part is the loop is the loop. -/
theorem loop_of_part (h : s.lifecycle.parts[me]? = some .loop) :
    ∃ l cancelled, s.activity? me = some (.loop l cancelled) := by
  rw [getElem?_parts] at h
  obtain ⟨a, ha, hp⟩ := Option.map_eq_some_iff.mp h
  cases a with
  | loop l cancelled => exact ⟨l, cancelled, ha⟩
  | flush c => contradiction
  | shutdown d => cases d <;> contradiction
  | ended c => contradiction

/-- A shutdown that has begun is in progress. -/
theorem part_of_begun {d : Shutdown} (h : s.activity? me = some (.shutdown d))
    (begun : d ≠ .called) : ∃ awaits, s.lifecycle.parts[me]? = some (.stopping awaits) := by
  have entry := part_of_activity h
  cases d with
  | called => exact absurd rfl begun
  | joining loop deadline => exact ⟨some loop, entry⟩
  | cancelling loop => exact ⟨some loop, entry⟩
  | flushing cycle sent lost => exact ⟨none, entry⟩

/-- A shutdown in progress has begun. -/
theorem begun_of_part {awaits : Option ActivityId}
    (h : s.lifecycle.parts[me]? = some (.stopping awaits)) :
    ∃ d, s.activity? me = some (.shutdown d) ∧ d ≠ .called := by
  rw [getElem?_parts] at h
  obtain ⟨a, ha, hp⟩ := Option.map_eq_some_iff.mp h
  cases a with
  | loop => contradiction
  | flush => contradiction
  | shutdown d =>
    refine ⟨d, ha, fun hd => ?_⟩
    rw [hd] at hp
    contradiction
  | ended => contradiction

theorem length_parts (s : State) : s.lifecycle.parts.length = s.activities.length :=
  List.length_map _

/-- A transition changes the phase and nothing else. -/
theorem lifecycle_move {tr : Transition} (h : s.move? tr = some t) :
    s.phase.next? tr = some t.phase ∧ t.lifecycle = { s.lifecycle with phase := t.phase } := by
  unfold move? at h
  obtain ⟨p, hp, rfl⟩ := Option.map_eq_some_iff.mp h
  exact ⟨hp, rfl⟩

/-- An offer does not concern the life of a publisher. -/
theorem lifecycle_offer (s : State) (e : Event) : (s.offer e).1.lifecycle = s.lifecycle := by
  unfold offer
  split
  · rfl
  · split
    · dsimp only
      split <;> rfl
    · rfl

end State

/-- What holds of the state that a step of a flush cycle leads to. -/
def CycleStep.Leads (P : State → Prop) : CycleStep → Prop
  | .waits => True
  | .goes s _ => P s
  | .ends s _ => P s
  | .breaks s => P s

namespace Cycle

private theorem lifecycle_hand (s : State) (me : ActivityId) (batch : Envelope) (second : Bool) :
    (s.hand me batch second).1.lifecycle = s.lifecycle := by
  unfold State.hand State.nextResponse
  dsimp only
  split <;> rfl

/-- A flush cycle does not concern the life of a publisher. -/
theorem lifecycle_of_step {c : Cycle} {s : State} {me : ActivityId} {retry : Bool} {r : CycleStep}
    (h : c.step s me retry = r) : r.Leads fun t => t.lifecycle = s.lifecycle := by
  have step := steps_of_step h
  cases step with
  | ship queued left taken supplied =>
    rw [left]
    exact lifecycle_hand _ me _ false
  | resume due => exact lifecycle_hand s me _ true
  | discard queued left taken unsupplied =>
    rw [left]
    exact rfl
  | retry answer allowed told =>
    rw [told]
    exact rfl
  | stay others => trivial
  | pend => trivial
  | pause early => trivial
  | _ => exact rfl

theorem lifecycle_cancel (c : Cycle) (s : State) (me : ActivityId) :
    (c.cancel s me).lifecycle = s.lifecycle := by
  cases c <;> rfl

end Cycle

namespace State

variable {s t u : State} {me : ActivityId} {a : Activity}

/-- An activity goes on as what it is. -/
theorem lifecycle_stay (a' : Activity) (ha : s.activity? me = some a)
    (hu : u.lifecycle = s.lifecycle) (hp : a'.part = a.part) :
    (u.setActivity me a').lifecycle = s.lifecycle := by
  rw [lifecycle_setActivity, hu, hp]
  exact Lifecycle.put_same (part_of_activity ha)

/-- An activity ends. -/
theorem move_of_close (ha : s.activity? me = some a) (hu : u.lifecycle = s.lifecycle)
    {c : Closing} (ends : a.part.mayEnd c = true) :
    Lifecycle.Move me s.lifecycle (u.close me c).lifecycle := by
  rw [close, lifecycle_setActivity, hu]
  exact .leave (part_of_activity ha) ends

end State

namespace Loop

variable {s t : State} {me : ActivityId}

private theorem lifecycle_toss (s : State) : s.toss.2.lifecycle = s.lifecycle := by
  unfold State.toss
  split <;> rfl

/-- The signals that wake the loop do not concern the life of a publisher. -/
theorem lifecycle_takeBranch (s : State) (me : ActivityId) (b : Branch) :
    (s.toss.2.takeBranch me b).lifecycle = s.lifecycle := by
  rw [← lifecycle_toss s]
  cases b <;> rfl

/-- The loop goes on or ends. -/
theorem move_of_step {l : Loop} (step : l.Steps s me t)
    (ha : s.activity? me = some (.loop l false)) :
    ReflGen (Lifecycle.Move me) s.lifecycle t.lifecycle := by
  have stays {u : State} (hu : u.lifecycle = s.lifecycle) (l' : Loop) :
      ReflGen (Lifecycle.Move me) s.lifecycle (u.setLoop me l').lifecycle := by
    rw [State.setLoop, State.lifecycle_stay (.loop l' false) ha hu rfl]
  have leaves {u : State} (hu : u.lifecycle = s.lifecycle) {c : Closing}
      (ends : Part.loop.mayEnd c = true) :
      ReflGen (Lifecycle.Move me) s.lifecycle (u.close me c).lifecycle :=
    .single (State.move_of_close ha hu ends)
  cases step with
  | create => exact stays rfl _
  | exit shut => exact leaves (s.lifecycle_report _) rfl
  | park up => exact stays rfl _
  | leave ready => exact leaves (lifecycle_takeBranch s me .shutdown) rfl
  | wake ready => exact stays (lifecycle_takeBranch s me .wake) _
  | tick ready => exact stays (lifecycle_takeBranch s me .tick) _
  | join ready absent => exact .refl
  | rest shut => exact stays rfl _
  | flush up => exact stays rfl _
  | goes h => exact stays (Cycle.lifecycle_of_step h) _
  | done h short => exact stays (Cycle.lifecycle_of_step h) _
  | more h long => exact stays (Cycle.lifecycle_of_step h) _
  | breaks h => exact leaves (Cycle.lifecycle_of_step h) rfl

theorem lifecycle_cancel (l : Loop) (s : State) (me : ActivityId) :
    (l.cancel s me).lifecycle = s.lifecycle := by
  cases l with
  | flushing tick cycle => exact cycle.lifecycle_cancel s me
  | _ => rfl

end Loop

namespace Shutdown

variable {s t : State} {me : ActivityId}

private theorem phase_of_stop {p q : Phase} (h : p.next? .stop = some q) :
    p ≠ .stopping ∧ q = .stopping := by
  cases p with
  | stopped =>
    cases h
    exact ⟨by decide, rfl⟩
  | running =>
    cases h
    exact ⟨by decide, rfl⟩
  | stopping => contradiction

/-- A shutdown that begins takes charge of the loop and closes the publisher. -/
private theorem move_of_stop {u : State} (moved : s.move? .stop = some u)
    (ha : s.activity? me = some (.shutdown .called)) {d : Shutdown}
    (hd : (Activity.shutdown d).part = .stopping u.worker) :
    Lifecycle.Move me s.lifecycle (u.closing.setShutdown me d).lifecycle := by
  obtain ⟨hp, hl⟩ := State.lifecycle_move moved
  obtain ⟨allowed, stopping⟩ := phase_of_stop hp
  have hw : u.worker = s.worker := congrArg Lifecycle.worker hl
  have hs : u.lifecycle.parts = s.lifecycle.parts := by rw [hl]
  rw [State.setShutdown, State.lifecycle_setActivity, hd]
  change Lifecycle.Move me s.lifecycle ⟨u.phase, true, none, u.lifecycle.parts.set me _⟩
  rw [hs, hw, stopping]
  exact .stop (State.part_of_activity ha) allowed

private theorem move_of_joined {loop : ActivityId} (gone : s.isEnded loop = true) {d : Shutdown}
    (ha : s.activity? me = some (.shutdown d))
    (hd : (Activity.shutdown d).part = .stopping (some loop)) :
    Lifecycle.Move me s.lifecycle (s.setShutdown me (.flushing .arriving 0 0)).lifecycle := by
  have entry := State.part_of_activity ha
  rw [hd] at entry
  unfold State.isEnded at gone
  split at gone
  · next c hl =>
    rw [State.setShutdown, State.lifecycle_setActivity]
    exact .joined entry (State.part_of_activity hl)
  · contradiction

/-- Asking the loop to end is not an end. -/
theorem lifecycle_cancelLoop (s : State) (loop : ActivityId) :
    (s.cancelLoop loop).lifecycle = s.lifecycle := by
  unfold State.cancelLoop
  split
  · next ha => exact State.lifecycle_stay _ ha rfl rfl
  · rfl

private theorem lifecycle_finish (s : State) : ((s.move? .finish).getD s).lifecycle =
    { s.lifecycle with phase := (s.phase.next? .finish).getD s.phase } := by
  unfold State.move?
  cases s.phase.next? .finish <;> rfl

/-- A shutdown goes on or ends. -/
theorem move_of_step {d : Shutdown} (step : d.Steps s me t)
    (ha : s.activity? me = some (.shutdown d)) :
    ReflGen (Lifecycle.Move me) s.lifecycle t.lifecycle := by
  have stays {u : State} (hu : u.lifecycle = s.lifecycle) {d' : Shutdown}
      (hd : (Activity.shutdown d').part = (Activity.shutdown d).part) :
      ReflGen (Lifecycle.Move me) s.lifecycle (u.setShutdown me d').lifecycle := by
    rw [State.setShutdown, State.lifecycle_stay (.shutdown d') ha hu hd]
  cases step with
  | again refused => exact .single (State.move_of_close ha (s.lifecycle_report _) rfl)
  | begin moved alone =>
    refine .single (move_of_stop moved ha ?_)
    rw [alone]
    rfl
  | await moved worker =>
    refine .single (move_of_stop moved ha ?_)
    rw [worker]
    rfl
  | join gone => exact .single (move_of_joined gone ha rfl)
  | @overdue loop deadline alive late =>
    exact stays ((lifecycle_cancelLoop _ loop).trans (s.lifecycle_report _)) rfl
  | joinLate gone => exact .single (move_of_joined gone ha rfl)
  | goes h => exact stays (Cycle.lifecycle_of_step h) rfl
  | @finish sent lost c u v h moved =>
    have hl : u.lifecycle = s.lifecycle := Cycle.lifecycle_of_step h
    have hp : u.phase = s.phase := congrArg Lifecycle.phase hl
    rw [State.close, State.lifecycle_setActivity, State.lifecycle_report, moved, lifecycle_finish,
      hl, hp]
    exact .single (.finish (State.part_of_activity ha))
  | sent h => exact stays (Cycle.lifecycle_of_step h) rfl
  | lost h => exact stays (Cycle.lifecycle_of_step h) rfl
  | breaks h => exact .single (State.move_of_close ha (Cycle.lifecycle_of_step h) rfl)

theorem lifecycle_cancel (d : Shutdown) (s : State) (me : ActivityId) :
    (d.cancel s me).lifecycle = s.lifecycle := by
  cases d with
  | flushing cycle sent lost => exact cycle.lifecycle_cancel s me
  | _ => rfl

end Shutdown

namespace State

variable {s t : State} {me : ActivityId}

/-- A step of an activity is at most one move. -/
theorem move_of_step (h : s.step? me = some t) :
    ReflGen (Lifecycle.Move me) s.lifecycle t.lifecycle := by
  have step := steps_of_step h
  cases step with
  | @cut l ha => exact .single (move_of_close ha (l.lifecycle_cancel s me) rfl)
  | loop ha step => exact Loop.move_of_step step ha
  | @goes c c' t ha hc => rw [lifecycle_stay (.flush c') ha (Cycle.lifecycle_of_step hc) rfl]
  | ends ha hc => exact .single (move_of_close ha (Cycle.lifecycle_of_step hc) rfl)
  | breaks ha hc => exact .single (move_of_close ha (Cycle.lifecycle_of_step hc) rfl)
  | shutdown ha step => exact Shutdown.move_of_step step ha

/-- Cutting an activity off is at most one move. -/
theorem move_of_cancel (s : State) (me : ActivityId) :
    ReflGen (Lifecycle.Move me) s.lifecycle (s.cancel me).lifecycle := by
  unfold cancel
  split
  · next l _ ha =>
    exact .single (move_of_close ha (l.lifecycle_cancel s me) rfl)
  · next cycle ha =>
    exact .single (move_of_close ha (cycle.lifecycle_cancel s me) rfl)
  · next d ha =>
    refine .single (move_of_close ha (d.lifecycle_cancel s me) ?_)
    cases d <;> rfl
  · exact .refl

/-- Starting launches the loop, or changes nothing. -/
theorem lifecycle_start (s : State) (runtime : Bool) :
    (s.start runtime).1.lifecycle = s.lifecycle ∨
      (s.closed = false ∧ s.phase = .stopped ∧ (s.start runtime).1.lifecycle =
        { s.lifecycle with
          phase := .running
          worker := some s.lifecycle.parts.length
          parts := s.lifecycle.parts ++ [.loop] }) := by
  unfold start
  split
  · exact .inl rfl
  · split
    · exact .inl rfl
    · next opened =>
      split
      · exact .inl rfl
      · split
        · exact .inl rfl
        · exact .inl rfl
        · next stopped =>
          split
          · exact .inl rfl
          · next moved hm =>
            obtain ⟨hp, hl⟩ := lifecycle_move hm
            rw [stopped] at hp
            have hr : moved.phase = .running := (Option.some.inj hp).symm
            have ha : moved.activities.length = s.lifecycle.parts.length := by
              have hs : moved.lifecycle.parts = s.lifecycle.parts := by rw [hl]
              rw [← hs, length_parts]
            refine .inr ⟨eq_false_of_ne_true opened, stopped, ?_⟩
            change ({ (moved.addActivity (.loop .created false)).lifecycle with
              worker := some moved.activities.length } : Lifecycle) = _
            rw [lifecycle_addActivity, hl, ha, hr]
            rfl

/-- What happens to a publisher, apart from an offer, is at most one step of its life. -/
theorem lifecycle_of_acts (h : Acts s t) :
    ReflGen Lifecycle.Step s.lifecycle t.lifecycle := by
  cases h with
  | start runtime =>
    rcases s.lifecycle_start runtime with he | ⟨opened, stopped, he⟩
    · rw [he]
    · rw [he]
      exact .single (.launch opened stopped)
  | callFlush =>
    rw [callFlush, lifecycle_addActivity]
    exact .single (.join (.inl rfl))
  | callShutdown =>
    rw [callShutdown, lifecycle_addActivity]
    exact .single (.join (.inr rfl))
  | step hs => exact (move_of_step hs).mono fun _ _ => .move
  | @cancel i _ => exact (s.move_of_cancel i).mono fun _ _ => .move
  | elapse millis => exact .refl

/-- What every step of its life keeps holds of a publisher after every run. -/
theorem lifecycle_run_keeps {P : Lifecycle → Prop} (keeps : ∀ {l l'}, l.Step l' → P l → P l')
    (start : P s.lifecycle) (actions : List Action) : P (s.run actions).lifecycle := by
  refine run_keeps (P := fun s => P s.lifecycle) (fun {s} e hs => ?_) (fun {s t} act hs => ?_)
    start actions
  · rw [lifecycle_offer]
    exact hs
  · rcases (reflGen_iff _ _ _).mp (lifecycle_of_acts act) with he | step
    · rw [he]
      exact hs
    · exact keeps step hs

/-- Steps of activities begin no new ones. -/
theorem length_of_step (h : s.step? me = some t) : t.activities.length = s.activities.length := by
  have hl : t.lifecycle.parts.length = s.lifecycle.parts.length := by
    rcases (reflGen_iff _ _ _).mp (move_of_step h) with he | move
    · rw [he]
    · exact move.length_parts
  rwa [length_parts, length_parts] at hl

/-- Nor does cutting an activity off. -/
theorem length_of_cancel (s : State) (me : ActivityId) :
    (s.cancel me).activities.length = s.activities.length := by
  have hl : (s.cancel me).lifecycle.parts.length = s.lifecycle.parts.length := by
    rcases (reflGen_iff _ _ _).mp (s.move_of_cancel me) with he | move
    · rw [he]
    · exact move.length_parts
  rwa [length_parts, length_parts] at hl

end State

end EventRelay.Publisher
