import EventRelay.Proofs.Publisher.Phases

/-!
# No wake-up is lost

Offers send a notification whenever they leave a full batch in the queue, and the loop looks at the
queue only after a flush cycle. In between, a notification is given to the waiting loop or stored,
and passed on by a loop that was woken by something else. So a loop that waits beside a full batch
has been notified, in every reachable state in which no shutdown was asked for, and the next thing
it does is to flush.
-/

namespace EventRelay.Publisher

open Relation

namespace Signal

variable {g : Signal} {me : ActivityId}

/-- Nobody waits for a signal, and nobody was woken by it. -/
def Free (g : Signal) : Prop := g.waiting = [] ∧ g.called = []

/-- Nobody but one activity waits for a signal or was woken by it. -/
inductive Sole (me : ActivityId) (g : Signal) : Prop
  /-- It does not take part. -/
  | absent (free : g.Free) : Sole me g
  /-- It waits. -/
  | waits (waiting : g.waiting = [me]) (called : g.called = []) : Sole me g
  /-- It was woken. -/
  | woken (waiting : g.waiting = []) (called : g.called = [me]) : Sole me g

/-- No notification is under way. -/
def Quiet (g : Signal) : Prop := g.stored = false ∧ g.called = []

/-- Where nobody waits, a notification is stored. -/
theorem Free.notify (h : g.Free) : g.notify.Free ∧ g.notify.stored = true := by
  unfold Signal.notify
  split
  · exact ⟨h, rfl⟩
  · next hw => cases h.1.symm.trans hw

/-- A stored notification is found by whoever comes next. -/
theorem Free.readyFor (h : g.Free) (stored : g.stored = true) : g.readyFor me = true := by
  rw [Signal.readyFor, h.1, stored]
  exact Bool.or_true _

/-- A notification reaches the only activity that can take it. -/
theorem Sole.notify (h : g.Sole me) : g.notify.Sole me ∧ g.notify.readyFor me = true := by
  cases h with
  | absent free =>
    obtain ⟨still, stored⟩ := free.notify
    exact ⟨.absent still, still.readyFor stored⟩
  | waits waiting called =>
    simp only [Signal.notify, waiting, called, List.nil_append]
    exact ⟨.woken rfl rfl, by simp [Signal.readyFor]⟩
  | woken waiting called =>
    simp only [Signal.notify, waiting]
    exact ⟨.woken rfl called, by simp [Signal.readyFor, called]⟩

theorem Sole.join (h : g.Sole me) : (g.join me).Sole me := by
  cases h with
  | absent free =>
    have fresh : (g.waiting.contains me || g.called.contains me) = false := by
      rw [free.1, free.2]
      rfl
    rw [Signal.join, fresh]
    exact .waits (by rw [free.1]; rfl) free.2
  | waits waiting called => simpa [Signal.join, waiting] using Sole.waits waiting called
  | woken waiting called => simpa [Signal.join, called] using Sole.woken waiting called

/-- Whoever takes the notification that it has found leaves nobody behind. -/
theorem Sole.take (h : g.Sole me) (ready : g.readyFor me = true) : (g.take me).Free := by
  cases h with
  | absent free => simpa [Signal.take, Free, free.2] using free.1
  | waits waiting called => simp [Signal.readyFor, waiting, called] at ready
  | woken waiting called =>
    simp only [Signal.take, called, List.contains_cons, BEq.rfl, Bool.true_or, if_true,
      List.erase_cons_head]
    exact ⟨waiting, rfl⟩

/-- Whoever leaves leaves nobody behind. -/
theorem Sole.leave (h : g.Sole me) : (g.leave me).Free := by
  cases h with
  | absent free => simp [Signal.leave, Free, free.1, free.2]
  | waits waiting called => simp [Signal.leave, Free, waiting, called]
  | woken waiting called =>
    simp only [Signal.leave, called, List.contains_cons, BEq.rfl, Bool.true_or, if_true,
      List.erase_cons_head]
    exact (Free.notify (g := { g with called := [] }) ⟨waiting, rfl⟩).1

theorem Quiet.not_ready (h : g.Quiet) : g.readyFor me = false := by
  rw [Signal.readyFor, h.1, h.2, Bool.and_false]
  rfl

theorem Quiet.join (h : g.Quiet) : (g.join me).Quiet := by
  unfold Signal.join
  split
  · exact h
  · exact h

theorem Quiet.leave (h : g.Quiet) : (g.leave me).Quiet := by
  have absent : g.called.contains me = false := by
    rw [h.2]
    rfl
  rw [Signal.leave, absent]
  exact h

end Signal

/-- What matters to the waking of the loop, the length of the queue apart. -/
structure Watch where
  /-- The settings. -/
  settings : Settings
  /-- The phase. -/
  phase : Phase
  /-- Nothing is accepted any more. -/
  closed : Bool
  /-- The loop is asked to end. -/
  shutdown : Bool
  /-- Wakes the loop when a batch is full. -/
  wake : Signal
  /-- Wakes the loop when it has to end. -/
  shutdownSignal : Signal
  /-- All activities, by number. -/
  activities : List Activity

/-- What matters to the waking of the loop in a state. -/
def State.watch (s : State) : Watch where
  settings := s.settings
  phase := s.phase
  closed := s.closed
  shutdown := s.shutdown
  wake := s.wake
  shutdownSignal := s.shutdownSignal
  activities := s.activities

/-- A full batch is queued. -/
def State.HasBatch (s : State) : Prop := s.settings.batchSize.value ≤ s.queue.length

/-- How the signal for full batches stands while the loop is at a stage; `full` says that there is a
full batch. Only inside its flush cycles the loop need not know of one, as it looks afterwards. -/
def Loop.Alert (me : ActivityId) (wake : Signal) (full : Prop) : Loop → Prop
  | .created => wake.Free ∧ (full → wake.stored = true)
  | .resting _ => wake.Free ∧ (full → wake.stored = true)
  | .parked _ => wake.Sole me ∧ (full → wake.readyFor me = true)
  | .draining _ => wake.Free
  | .flushing .. => wake.Free

namespace Loop.Alert

variable {me : ActivityId} {wake : Signal} {full full' : Prop} {l : Loop}

/-- A loop stays alert when events are taken off the queue. -/
theorem mono (h : l.Alert me wake full) (less : full' → full) : l.Alert me wake full' := by
  cases l with
  | created => exact ⟨h.1, fun hf => h.2 (less hf)⟩
  | resting tick => exact ⟨h.1, fun hf => h.2 (less hf)⟩
  | parked tick => exact ⟨h.1, fun hf => h.2 (less hf)⟩
  | draining tick => exact h
  | flushing tick cycle => exact h

/-- A loop stays alert when it is notified, whatever is queued then. -/
theorem notify (h : l.Alert me wake full) : l.Alert me wake.notify full' := by
  cases l with
  | created => exact ⟨h.1.notify.1, fun _ => h.1.notify.2⟩
  | resting tick => exact ⟨h.1.notify.1, fun _ => h.1.notify.2⟩
  | parked tick => exact ⟨h.1.notify.1, fun _ => h.1.notify.2⟩
  | draining tick => exact (Signal.Free.notify h).1
  | flushing tick cycle => exact (Signal.Free.notify h).1

end Loop.Alert

namespace State

variable {s t u : State} {me i : ActivityId}

/-- No full batch is overlooked, and nothing but a shutdown asks the loop to end. -/
structure Vigilant (s : State) : Prop where
  /-- A shutdown closes the publisher and asks the loop to end at once. -/
  shut : s.closed = s.shutdown
  /-- Without a shutdown nobody is told to end. -/
  quiet : s.shutdown = false → s.shutdownSignal.Quiet
  /-- Before the start a full batch is remembered. -/
  before : s.phase = .stopped → s.closed = false →
    s.wake.Free ∧ (s.HasBatch → s.wake.stored = true)
  /-- The loop is alert. -/
  loop : ∀ {me : ActivityId} {l : Loop} {cancelled : Bool},
    s.activity? me = some (.loop l cancelled) → s.shutdown = false →
      cancelled = false ∧ l.Alert me s.wake s.HasBatch

/-- Nothing happens that concerns the loop, but that events may be taken off the queue. -/
structure Apart (s t : State) : Prop where
  /-- The loop finds all as it was. -/
  watch : t.watch = s.watch
  /-- No more is queued. -/
  queue : t.queue.length ≤ s.queue.length

namespace Apart

/-- What leaves the queue alone as well. -/
theorem same (watch : t.watch = s.watch) (queue : t.queue = s.queue) : Apart s t :=
  ⟨watch, Nat.le_of_eq (congrArg List.length queue)⟩

theorem trans (h : Apart s t) (h' : Apart t u) : Apart s u :=
  ⟨h'.watch.trans h.watch, Nat.le_trans h'.queue h.queue⟩

/-- What is not the business of the loop brings no full batch. -/
theorem hasBatch (h : Apart s t) (full : t.HasBatch) : s.HasBatch := by
  have hs : t.settings = s.settings := congrArg Watch.settings h.watch
  rw [HasBatch, hs] at full
  exact Nat.le_trans full h.queue

theorem activity (h : Apart s t) (i : ActivityId) : t.activity? i = s.activity? i := by
  have ha : t.activities = s.activities := congrArg Watch.activities h.watch
  rw [activity?, ha]
  rfl

end Apart

/-- The loop may have dealt with its signals, and has not been told to end. -/
structure Alike (s t : State) : Prop where
  phase : t.phase = s.phase
  closed : t.closed = s.closed
  shutdown : t.shutdown = s.shutdown
  activities : t.activities = s.activities
  quiet : s.shutdownSignal.Quiet → t.shutdownSignal.Quiet

theorem Apart.alike (h : Apart s t) : Alike s t where
  phase := congrArg Watch.phase h.watch
  closed := congrArg Watch.closed h.watch
  shutdown := congrArg Watch.shutdown h.watch
  activities := congrArg Watch.activities h.watch
  quiet hq := by
    have hg : t.shutdownSignal = s.shutdownSignal := congrArg Watch.shutdownSignal h.watch
    rwa [hg]

theorem Apart.wake (h : Apart s t) : t.wake = s.wake := congrArg Watch.wake h.watch

private theorem apart_drain (s : State) (me : ActivityId) : Apart s (s.drain me).1 := by
  refine ⟨rfl, ?_⟩
  change (s.queue.drop _).length ≤ _
  rw [List.length_drop]
  exact Nat.sub_le _ _

private theorem apart_hand (s : State) (me : ActivityId) (batch : Envelope) (second : Bool) :
    Apart s (s.hand me batch second).1 := by
  unfold hand nextResponse
  dsimp only
  split <;> exact .same rfl rfl

end State

namespace Cycle

variable {s t : State} {me : ActivityId} {retry : Bool} {c : Cycle}

/-- A flush cycle does nothing that concerns the loop. -/
theorem apart_of_step {r : CycleStep} (h : c.step s me retry = r) :
    r.Leads fun t => s.Apart t := by
  have step := steps_of_step h
  cases step with
  | ship queued left taken supplied =>
    rw [left]
    exact (State.apart_drain s me).trans (State.apart_hand _ me _ false)
  | resume due => exact State.apart_hand s me _ true
  | discard queued left taken unsupplied =>
    rw [left]
    exact (State.apart_drain s me).trans (.same rfl rfl)
  | retry answer allowed told =>
    rw [told]
    exact .same rfl rfl
  | stay others => trivial
  | pend => trivial
  | pause early => trivial
  | _ => exact .same rfl rfl

theorem apart_cancel (c : Cycle) (s : State) (me : ActivityId) : s.Apart (c.cancel s me) := by
  cases c <;> exact .same rfl rfl

end Cycle

namespace State

variable {s t u : State} {me i : ActivityId}

/-- In an open publisher only one loop lives. -/
theorem loop_unique (sound : s.lifecycle.Sound) (opened : s.closed = false) {l l' : Loop}
    {c c' : Bool} (hi : s.activity? i = some (.loop l c))
    (hme : s.activity? me = some (.loop l' c')) : i = me := by
  have running : s.lifecycle.phase = .running := by
    cases hp : s.lifecycle.phase with
    | stopped => exact absurd hp (sound.loops (part_of_activity hi)).1
    | running => rfl
    | stopping => cases opened.symm.trans (sound.closing hp)
  have known := (sound.loops (part_of_activity hi)).2 running
  have mine := (sound.loops (part_of_activity hme)).2 running
  exact Option.some.inj (known.symm.trans mine)

namespace Vigilant

/-- Once a shutdown has been asked for there is nothing to watch. -/
theorem of_shut (closed : s.closed = true) (shutdown : s.shutdown = true) : s.Vigilant where
  shut := closed.trans shutdown.symm
  quiet up := by cases shutdown.symm.trans up
  before _ opened := by cases closed.symm.trans opened
  loop _ up := by cases shutdown.symm.trans up

/-- What happens apart from the loop leaves it vigilant. -/
theorem apart (h : s.Vigilant) (apart : Apart s t) : t.Vigilant := by
  have same := apart.alike
  refine ⟨same.closed.trans (h.shut.trans same.shutdown.symm),
    fun up => same.quiet (h.quiet (same.shutdown ▸ up)), fun stopped opened => ?_,
    fun {j l c} hj up => ?_⟩
  · obtain ⟨free, heeds⟩ := h.before (same.phase ▸ stopped) (same.closed ▸ opened)
    rw [apart.wake]
    exact ⟨free, fun full => heeds (apart.hasBatch full)⟩
  · rw [apart.activity j] at hj
    obtain ⟨uncut, alert⟩ := h.loop hj (same.shutdown ▸ up)
    rw [apart.wake]
    exact ⟨uncut, alert.mono apart.hasBatch⟩

/-- An activity that is not the loop goes on as something else that is not the loop. -/
theorem put (h : s.Vigilant) {a : Activity} (after : ∀ l c, a ≠ .loop l c) :
    (s.setActivity i a).Vigilant := by
  refine ⟨h.shut, h.quiet, h.before, fun {j l c} hj up => ?_⟩
  rcases getElem?_of_set hj with ⟨_, he⟩ | ⟨_, hj⟩
  · exact absurd he.symm (after l c)
  · exact h.loop hj up

/-- An activity begins that is not the loop. -/
theorem add (h : s.Vigilant) {a : Activity} (after : ∀ l c, a ≠ .loop l c) :
    (s.addActivity a).Vigilant := by
  refine ⟨h.shut, h.quiet, h.before, fun {j l c} hj up => ?_⟩
  rcases getElem?_of_append hj with ⟨_, he⟩ | hj
  · exact absurd he.symm (after l c)
  · exact h.loop hj up

/-- The loop goes on at another stage, at which it is alert. -/
theorem loop_on (h : s.Vigilant) (sound : s.lifecycle.Sound) {l l' : Loop} {c : Bool}
    (ha : s.activity? me = some (.loop l c)) (same : Alike s u)
    (alert : s.shutdown = false → l.Alert me s.wake s.HasBatch → l'.Alert me u.wake u.HasBatch) :
    (u.setLoop me l').Vigilant := by
  refine ⟨same.closed.trans (h.shut.trans same.shutdown.symm),
    fun up => same.quiet (h.quiet (same.shutdown ▸ up)), fun stopped _ => ?_,
    fun {j l'' c'} hj up => ?_⟩
  · exact absurd (same.phase.symm.trans stopped) (sound.loops (part_of_activity ha)).1
  · have still : s.shutdown = false := same.shutdown ▸ up
    rcases getElem?_of_set hj with ⟨rfl, he⟩ | ⟨hne, hj⟩
    · cases he
      exact ⟨rfl, alert still (h.loop ha still).2⟩
    · rw [same.activities] at hj
      exact absurd (loop_unique sound (h.shut.trans still) hj ha) hne

/-- The loop ends. -/
theorem loop_over (h : s.Vigilant) (sound : s.lifecycle.Sound) {l : Loop} {c : Bool}
    (ha : s.activity? me = some (.loop l c)) (same : Alike s u) (closing : Closing) :
    (u.close me closing).Vigilant := by
  refine ⟨same.closed.trans (h.shut.trans same.shutdown.symm),
    fun up => same.quiet (h.quiet (same.shutdown ▸ up)), fun stopped _ => ?_,
    fun {j l' c'} hj up => ?_⟩
  · exact absurd (same.phase.symm.trans stopped) (sound.loops (part_of_activity ha)).1
  · have still : s.shutdown = false := same.shutdown ▸ up
    rcases getElem?_of_set hj with ⟨rfl, he⟩ | ⟨hne, hj⟩
    · contradiction
    · rw [same.activities] at hj
      exact absurd (loop_unique sound (h.shut.trans still) hj ha) hne

/-- An accepted event that fills a batch notifies the loop, and a refused one changes nothing. -/
theorem offer (h : s.Vigilant) (e : Event) : (s.offer e).1.Vigilant := by
  unfold State.offer
  split
  · exact h.apart (.same rfl rfl)
  · split
    · dsimp only
      split
      · refine ⟨h.shut, h.quiet, fun stopped opened => ?_, fun {j l c} hj up => ?_⟩
        · obtain ⟨free, stored⟩ := (h.before stopped opened).1.notify
          exact ⟨free, fun _ => stored⟩
        · obtain ⟨uncut, alert⟩ := h.loop hj up
          exact ⟨uncut, alert.notify⟩
      · next short =>
        refine ⟨h.shut, h.quiet, fun stopped opened => ?_, fun {j l c} hj up => ?_⟩
        · exact ⟨(h.before stopped opened).1, fun full => absurd full short⟩
        · obtain ⟨uncut, alert⟩ := h.loop hj up
          exact ⟨uncut, alert.mono fun full => absurd full short⟩
    · exact h.apart (.same rfl rfl)

/-- Before its first step the loop knows of a full batch that was queued before the start. -/
theorem start (h : s.Vigilant) (sound : s.lifecycle.Sound) (runtime : Bool) :
    (s.start runtime).1.Vigilant := by
  unfold State.start
  split
  · exact h.apart (.same rfl rfl)
  · split
    · exact h.apart (.same rfl rfl)
    · next opened =>
      split
      · exact h
      · split
        · exact h
        · exact h.apart (.same rfl rfl)
        · next stopped =>
          split
          · exact h
          · next moved hm =>
            unfold move? at hm
            obtain ⟨p, hp, rfl⟩ := Option.map_eq_some_iff.mp hm
            rw [stopped] at hp
            cases hp
            refine ⟨h.shut, h.quiet, fun hr => by contradiction, fun {j l c} hj up => ?_⟩
            rcases getElem?_of_append hj with ⟨_, he⟩ | hj
            · cases he
              exact ⟨rfl, h.before stopped (eq_false_of_ne_true opened)⟩
            · exact absurd stopped (sound.loops (part_of_activity hj)).1

end Vigilant

private theorem signals_toss (s : State) :
    s.toss.2.wake = s.wake ∧ s.toss.2.shutdownSignal = s.shutdownSignal := by
  unfold toss
  split <;> exact ⟨rfl, rfl⟩

/-- A loop that is woken takes a branch and leaves the other signals. -/
private theorem alike_takeBranch {b : Branch}
    (quiet : s.shutdownSignal.Quiet → (s.toss.2.takeBranch me b).shutdownSignal.Quiet) :
    Alike s (s.toss.2.takeBranch me b) := by
  have same : (s.toss.2.takeBranch me b).phase = s.phase ∧
      (s.toss.2.takeBranch me b).closed = s.closed ∧
      (s.toss.2.takeBranch me b).shutdown = s.shutdown ∧
      (s.toss.2.takeBranch me b).activities = s.activities := by
    unfold toss
    split <;> cases b <;> exact ⟨rfl, rfl, rfl, rfl⟩
  exact ⟨same.1, same.2.1, same.2.2.1, same.2.2.2, quiet⟩

/-- A step of the loop leaves it vigilant. -/
theorem Vigilant.loop_step (h : s.Vigilant) (sound : s.lifecycle.Sound) {l : Loop}
    (ha : s.activity? me = some (.loop l false)) (step : l.Steps s me t) : t.Vigilant := by
  obtain ⟨hw, hg⟩ := s.signals_toss
  have still : Alike s s := ⟨rfl, rfl, rfl, rfl, id⟩
  cases step with
  | create => exact h.loop_on sound ha still fun _ alert => alert
  | exit shut => exact h.loop_over (u := s.report .loopExited) sound ha ⟨rfl, rfl, rfl, rfl, id⟩ _
  | park up =>
    refine h.loop_on sound ha still fun _ alert => ?_
    exact ⟨.absent alert.1, fun full => alert.1.readyFor (alert.2 full)⟩
  | @leave tick ready =>
    have told : s.branchReady me tick .shutdown = true := List.find?_some ready
    have same : Alike s (s.toss.2.takeBranch me .shutdown) := alike_takeBranch fun quiet => by
      cases quiet.not_ready.symm.trans told
    exact h.loop_over (u := (s.toss.2.takeBranch me .shutdown).report .loopExited) sound ha
      ⟨same.phase, same.closed, same.shutdown, same.activities, same.quiet⟩ _
  | @wake tick ready =>
    have found : s.branchReady me tick .wake = true := List.find?_some ready
    refine h.loop_on sound ha (alike_takeBranch fun quiet => ?_) fun _ alert => ?_
    · change (s.toss.2.shutdownSignal.leave me).Quiet
      rw [hg]
      exact quiet.leave
    · change (s.toss.2.wake.take me).Free
      rw [hw]
      exact alert.1.take found
  | tick ready =>
    refine h.loop_on sound ha (alike_takeBranch fun quiet => ?_) fun _ alert => ?_
    · change (s.toss.2.shutdownSignal.leave me).Quiet
      rw [hg]
      exact quiet.leave
    · change (s.toss.2.wake.leave me).Free
      rw [hw]
      exact alert.1.leave
  | @join tick ready absent =>
    refine ⟨h.shut, fun up => (h.quiet up).join, fun stopped _ => ?_, fun {j l c} hj up => ?_⟩
    · exact absurd stopped (sound.loops (part_of_activity ha)).1
    · obtain rfl := loop_unique sound (h.shut.trans up) hj ha
      obtain ⟨uncut, alert⟩ := h.loop hj up
      cases ha.symm.trans hj
      -- Whoever joins the waiters has found no notification, so that there is no full batch.
      have unwoken : ¬ s.branchReady j tick .wake = true :=
        List.find?_eq_none.mp ready .wake (by cases s.toss.1 <;> decide)
      exact ⟨uncut, alert.1.join, fun full => absurd (alert.2 full) unwoken⟩
  | rest shut =>
    refine h.loop_on sound ha still fun up _ => ?_
    cases up.symm.trans shut
  | flush up => exact h.loop_on sound ha still fun _ alert => alert
  | @goes tick c c' u hc =>
    have apart : s.Apart u := Cycle.apart_of_step hc
    exact h.loop_on sound ha apart.alike fun _ alert => apart.wake ▸ alert
  | @done tick c u o hc short =>
    have apart : s.Apart u := Cycle.apart_of_step hc
    exact h.loop_on sound ha apart.alike fun _ alert =>
      ⟨apart.wake ▸ alert, fun full => absurd full (Nat.not_le_of_lt short)⟩
  | @more tick c u o hc long =>
    have apart : s.Apart u := Cycle.apart_of_step hc
    exact h.loop_on sound ha apart.alike fun _ alert => apart.wake ▸ alert
  | breaks hc => exact h.loop_over sound ha (Cycle.apart_of_step hc : s.Apart _).alike _

/-- A shutdown closes the publisher and asks the loop to end at once, or does neither. -/
private theorem shut_of_step {d : Shutdown} (step : d.Steps s me t) :
    (t.closed = s.closed ∧ t.shutdown = s.shutdown) ∨ (t.closed = true ∧ t.shutdown = true) := by
  have cycle {u : State} (apart : s.Apart u) : u.closed = s.closed ∧ u.shutdown = s.shutdown :=
    ⟨apart.alike.closed, apart.alike.shutdown⟩
  cases step with
  | again refused => exact .inl ⟨rfl, rfl⟩
  | begin moved alone => exact .inr ⟨rfl, rfl⟩
  | await moved worker => exact .inr ⟨rfl, rfl⟩
  | join gone => exact .inl ⟨rfl, rfl⟩
  | overdue alive late =>
    left
    unfold setShutdown cancelLoop
    split <;> exact ⟨rfl, rfl⟩
  | joinLate gone => exact .inl ⟨rfl, rfl⟩
  | @goes sent lost c c' u hc => exact .inl (cycle (u := u) (Cycle.apart_of_step hc))
  | @finish sent lost c u v hc moved =>
    left
    have same : v.closed = u.closed ∧ v.shutdown = u.shutdown := by
      rw [moved]
      unfold move?
      cases u.phase.next? .finish <;> exact ⟨rfl, rfl⟩
    obtain ⟨hc, hs⟩ := cycle (Cycle.apart_of_step hc : s.Apart u)
    exact ⟨same.1.trans hc, same.2.trans hs⟩
  | @sent sent lost n c u hc => exact .inl (cycle (u := u) (Cycle.apart_of_step hc))
  | @lost sent lost n c u hc => exact .inl (cycle (u := u) (Cycle.apart_of_step hc))
  | @breaks sent lost c u hc => exact .inl (cycle (u := u) (Cycle.apart_of_step hc))

/-- A step of a shutdown leaves the loop vigilant, or there is no need any more. -/
theorem Vigilant.shutdown_step (h : s.Vigilant) (sound : s.lifecycle.Sound) {d : Shutdown}
    (ha : s.activity? me = some (.shutdown d)) (step : d.Steps s me t) : t.Vigilant := by
  have begun {awaits : Option ActivityId} (hd : (Activity.shutdown d).part = .stopping awaits) :
      t.Vigilant := by
    have entry := part_of_activity ha
    rw [hd] at entry
    have closed : s.closed = true := sound.closing (sound.awaited entry).1
    rcases shut_of_step step with ⟨hc, hs⟩ | ⟨hc, hs⟩
    · exact .of_shut (hc.trans closed) (hs.trans (h.shut.symm.trans closed))
    · exact .of_shut hc hs
  cases d with
  | called =>
    cases step with
    | again refused =>
      exact (h.apart (t := s.report (.stopRepeated s.phase)) (.same rfl rfl)).put
        fun _ _ => Activity.noConfusion
    | begin moved alone => exact .of_shut rfl rfl
    | await moved worker => exact .of_shut rfl rfl
  | joining loop deadline => exact begun rfl
  | cancelling loop => exact begun rfl
  | flushing cycle sent lost => exact begun rfl

/-- A step of an activity leaves the loop vigilant. -/
theorem Vigilant.step (h : s.Vigilant) (sound : s.lifecycle.Sound) (hs : s.step? me = some t) :
    t.Vigilant := by
  have step := steps_of_step hs
  cases step with
  | @cut l ha =>
    -- Only a shutdown tells the loop to end.
    have told : s.shutdown = true := by
      cases up : s.shutdown with
      | false => cases (h.loop ha up).1
      | true => rfl
    have same : (l.cancel s me).closed = s.closed ∧ (l.cancel s me).shutdown = s.shutdown := by
      cases l with
      | flushing tick cycle => cases cycle <;> exact ⟨rfl, rfl⟩
      | _ => exact ⟨rfl, rfl⟩
    exact .of_shut (same.1.trans (h.shut.trans told)) (same.2.trans told)
  | loop ha step => exact h.loop_step sound ha step
  | goes ha hc => exact (h.apart (Cycle.apart_of_step hc)).put fun _ _ => Activity.noConfusion
  | ends ha hc => exact (h.apart (Cycle.apart_of_step hc)).put fun _ _ => Activity.noConfusion
  | breaks ha hc => exact (h.apart (Cycle.apart_of_step hc)).put fun _ _ => Activity.noConfusion
  | shutdown ha step => exact h.shutdown_step sound ha step

/-- Whatever happens, the loop stays vigilant. -/
theorem Vigilant.acts (h : s.Vigilant) (sound : s.lifecycle.Sound) (act : Acts s t) :
    t.Vigilant := by
  cases act with
  | start runtime => exact h.start sound runtime
  | callFlush => exact h.add fun _ _ => Activity.noConfusion
  | callShutdown => exact h.add fun _ _ => Activity.noConfusion
  | step hs => exact h.step sound hs
  | @cancel i other =>
    unfold State.cancel
    split
    · next l c ha => exact absurd ha (other l c)
    · next cycle ha => exact (h.apart (cycle.apart_cancel s i)).put fun _ _ => Activity.noConfusion
    · next d ha =>
      have apart : s.Apart (d.cancel s i) := by
        cases d with
        | flushing cycle sent lost => exact cycle.apart_cancel s i
        | _ => exact .same rfl rfl
      exact (h.apart apart).put fun _ _ => Activity.noConfusion
    · exact h
  | elapse millis => exact h.apart (.same rfl rfl)

end State

/-- In every reachable state the loop is vigilant. -/
theorem Made.vigilant {s : State} (made : Made s) (actions : List Action) :
    (s.run actions).Vigilant := by
  have untouched := made.untouched
  have start : s.lifecycle.Sound ∧ s.Vigilant := by
    refine ⟨made.sound [], untouched.closed.trans untouched.shutdown.symm, fun _ => ?_,
      fun _ _ => ?_, fun {j l c} hj _ => ?_⟩
    · rw [untouched.shutdownSignal]
      exact ⟨rfl, rfl⟩
    · rw [untouched.wake, State.HasBatch, untouched.queue]
      exact ⟨⟨rfl, rfl⟩, fun full => absurd full (Nat.not_le_of_lt s.settings.batchSize.pos)⟩
    · rw [State.activity?, untouched.activities] at hj
      contradiction
  refine (State.run_keeps (P := fun s => s.lifecycle.Sound ∧ s.Vigilant) (fun {s} e h => ?_)
    (fun {s t} act h => ?_) start actions).2
  · exact ⟨(s.lifecycle_offer e).symm ▸ h.1, h.2.offer e⟩
  · exact ⟨State.sound_of_acts act h.1, h.2.acts h.1 act⟩

/-- A loop that waits, and has not been told to end, goes on to flush once it finds anything. -/
theorem State.Vigilant.goes_on {s : State} (h : s.Vigilant) {me : ActivityId} {tick : Nat}
    {cancelled : Bool} (parked : s.activity? me = some (.loop (.parked tick) cancelled))
    (up : s.shutdown = false) {found : Branch} (ready : s.branchReady me tick found = true) :
    ∃ t tick', s.step? me = some t ∧ t.activity? me = some (.loop (.draining tick') false) := by
  obtain ⟨rfl, _⟩ := h.loop parked up
  have draining {u : State} (hu : u.activities = s.activities) (tick' : Nat) :
      (u.setLoop me (.draining tick')).activity? me = some (.loop (.draining tick') false) := by
    refine getElem?_set_of_some (x := .loop (.parked tick) false) ?_ _
    rw [hu]
    exact parked
  have same (b : Branch) : (s.toss.2.takeBranch me b).activities = s.activities := by
    unfold toss
    split <;> cases b <;> rfl
  cases hf : (Branch.order s.toss.1).find? (s.branchReady me tick) with
  | none =>
    have unready : ¬ s.branchReady me tick found = true :=
      List.find?_eq_none.mp hf found (by cases s.toss.1 <;> cases found <;> decide)
    exact absurd ready unready
  | some b =>
    have first : s.branchReady me tick b = true := List.find?_some hf
    cases b with
    | shutdown => cases (h.quiet up).not_ready.symm.trans first
    | wake =>
      refine ⟨_, tick, ?_, draining (same .wake) tick⟩
      simp only [State.step?, parked, Loop.step?, hf]
    | tick =>
      refine ⟨_, s.nextTick tick, ?_, draining (same .tick) _⟩
      simp only [State.step?, parked, Loop.step?, hf]

/-- A loop that has found a full batch, and has not been told to end, goes on to flush. -/
theorem State.Vigilant.flushes {s : State} (h : s.Vigilant) {me : ActivityId} {tick : Nat}
    {cancelled : Bool} (parked : s.activity? me = some (.loop (.parked tick) cancelled))
    (up : s.shutdown = false) (woken : s.wake.readyFor me = true) :
    ∃ t tick', s.step? me = some t ∧ t.activity? me = some (.loop (.draining tick') false) :=
  h.goes_on parked up (show s.branchReady me tick .wake = true from woken)

/-- A loop that waits, while no shutdown was asked for, either finds less than a full batch in the
queue or is about to run: it was given a notification, or does not wait yet and will find one that
is stored. What it does next is to leave its waiting and flush. -/
theorem full_batch_wakes_waiting_loop {s₀ : State} (made : Made s₀) (actions : List Action)
    {s : State} (moment : s ∈ s₀.moments actions) {me : ActivityId} {tick : Nat} {cancelled : Bool}
    (waits : s.activity? me = some (.loop (.parked tick) cancelled)) (up : s.shutdown = false) :
    s.queue.length < s.settings.batchSize.value ∨
      ((me ∈ s.wake.called ∨ (me ∉ s.wake.waiting ∧ s.wake.stored = true)) ∧
        ∃ t tick', s.step? me = some t ∧
          t.activity? me = some (.loop (.draining tick') false)) := by
  obtain ⟨before, _, rfl, _⟩ := State.exists_of_mem_moments moment
  have vigilant := made.vigilant before
  rcases Nat.lt_or_ge (s₀.run before).queue.length (s₀.run before).settings.batchSize.value with
    short | full
  · exact .inl short
  · have woken := (vigilant.loop waits up).2.2 full
    refine .inr ⟨?_, vigilant.flushes waits up woken⟩
    simpa [Signal.readyFor] using woken

/-- The loop is started and waits, and then a batch of two events is offered. -/
def waitThenOffer : List Action := [.start true, .poll 0] ++ offers 2

/-- A batch of two events is offered, and then the loop is started and comes to its waiting. -/
def offerThenWait : List Action := offers 2 ++ [.start true, .step 0, .step 0]

/-- A loop that waits is woken by the second event of a batch of two, and one that starts beside two
buffered events finds the notification that they have left. -/
theorem second_event_wakes_loop :
    Made (small []) ∧
    ((small []).run waitThenOffer).activity? 0 = some (.loop (.parked 2000) false) ∧
    ((small []).run waitThenOffer).shutdown = false ∧
    0 ∈ ((small []).run waitThenOffer).wake.called ∧
    (∃ t tick, ((small []).run waitThenOffer).step? 0 = some t ∧
      t.activity? 0 = some (.loop (.draining tick) false)) ∧
    ((small []).run offerThenWait).activity? 0 = some (.loop (.parked 2000) false) ∧
    ((small []).run offerThenWait).shutdown = false ∧
    ((small []).run offerThenWait).wake.stored = true ∧
    ∃ t tick, ((small []).run offerThenWait).step? 0 = some t ∧
      t.activity? 0 = some (.loop (.draining tick) false) := by
  have waits : ((small []).run waitThenOffer).activity? 0 =
      some (.loop (.parked 2000) false) := rfl
  have begins : ((small []).run offerThenWait).activity? 0 =
      some (.loop (.parked 2000) false) := rfl
  have woken := full_batch_wakes_waiting_loop (made_small []) waitThenOffer
    ((small []).run_mem_moments waitThenOffer) waits rfl
  have finds := full_batch_wakes_waiting_loop (made_small []) offerThenWait
    ((small []).run_mem_moments offerThenWait) begins rfl
  refine ⟨made_small [], waits, rfl, List.mem_singleton_self 0, ?_, begins, rfl, rfl, ?_⟩
  · exact (woken.resolve_left (by decide)).2
  · exact (finds.resolve_left (by decide)).2

end EventRelay.Publisher
