import EventRelay.Proofs.Publisher.Finality

/-!
# Closed for good

A publisher is started at most once and closed at most once. Stopped is the phase before the start
as well as the phase after a shutdown, and only the closing tells them apart: a loop is started in
an open publisher that is stopped, and a publisher that has been started is never both again. So at
most one loop ever lives, and once a shutdown has begun nothing is accepted and nothing is started
any more.
-/

namespace EventRelay.Publisher

open Relation

namespace Lifecycle

variable {l l' : Lifecycle} {i me : ActivityId}

/-- A closed publisher stays closed. -/
theorem Step.closed (step : l.Step l') (closed : l.closed = true) : l'.closed = true := by
  cases step with
  | join => exact closed
  | launch opened =>
    rw [closed] at opened
    contradiction
  | move m =>
    cases m with
    | leave => exact closed
    | stop => rfl
    | joined => exact closed
    | finish => exact closed

/-- No activity but one is the loop, and no loop can be started. -/
structure Launched (i : ActivityId) (l : Lifecycle) : Prop where
  /-- Whatever lives as a loop is this activity. -/
  loops : ∀ j : ActivityId, l.parts[j]? = some .loop → j = i
  /-- Stopped means closed. -/
  spent : l.phase = .stopped → l.closed = true

/-- An activity that becomes anything but a loop adds none. -/
theorem loop_of_put {p : Part} (other : p ≠ .loop) {j : ActivityId}
    (h : (l.put me p).parts[j]? = some .loop) : l.parts[j]? = some .loop := by
  rcases getElem?_of_set h with ⟨_, hp⟩ | ⟨_, hj⟩
  · exact absurd hp.symm other
  · exact hj

/-- Moves of activities start no loop. -/
theorem Move.loop_of_loop (move : Move me l l') {j : ActivityId}
    (h : l'.parts[j]? = some .loop) : l.parts[j]? = some .loop := by
  cases move with
  | leave => exact loop_of_put Part.noConfusion h
  | stop => exact loop_of_put Part.noConfusion h
  | joined => exact loop_of_put Part.noConfusion h
  | finish => exact loop_of_put Part.noConfusion h

/-- A publisher that becomes stopped was closed when its shutdown began. -/
theorem Move.stopped (move : Move me l l') (sound : l.Sound) (stopped : l'.phase = .stopped) :
    (l.phase = .stopped ∧ l'.closed = l.closed) ∨ l'.closed = true := by
  cases move with
  | leave => exact .inl ⟨stopped, rfl⟩
  | stop => contradiction
  | joined => exact .inl ⟨stopped, rfl⟩
  | finish entry => exact .inr (sound.closing (sound.awaited entry).1)

namespace Launched

private theorem join (h : l.Launched i) {p : Part} (call : p = .flush ∨ p = .called) :
    Launched i { l with parts := l.parts ++ [p] } := by
  refine ⟨fun j hj => ?_, h.spent⟩
  rcases getElem?_of_append hj with ⟨_, rfl⟩ | hj
  · rcases call with hp | hp <;> contradiction
  · exact h.loops j hj

private theorem move (h : l.Launched i) (sound : l.Sound) (move : Move me l l') :
    l'.Launched i := by
  refine ⟨fun j hj => h.loops j (move.loop_of_loop hj), fun stopped => ?_⟩
  rcases move.stopped sound stopped with ⟨before, same⟩ | closed
  · rw [same]
    exact h.spent before
  · exact closed

end Launched

/-- Once the loop was started no other one is started. -/
theorem Step.launched (step : l.Step l') (sound : l.Sound) (h : l.Launched i) :
    l'.Launched i := by
  cases step with
  | join call => exact h.join call
  | launch opened allowed =>
    rw [h.spent allowed] at opened
    contradiction
  | move m => exact h.move sound m

/-- Either the loop can still be started, or it is known which activity it was. -/
theorem Step.fresh_or_launched (step : l.Step l') (sound : l.Sound)
    (h : (l.phase = .stopped ∧ l.closed = false) ∨ ∃ i, l.Launched i) :
    (l'.phase = .stopped ∧ l'.closed = false) ∨ ∃ i, l'.Launched i := by
  rcases h with ⟨stopped, opened⟩ | ⟨i, h⟩
  · -- Before the start no loop lives, so that the one that is started is the only one.
    have quiet (j : ActivityId) : l.parts[j]? ≠ some .loop :=
      fun hj => (sound.loops hj).1 stopped
    cases step with
    | join => exact .inl ⟨stopped, opened⟩
    | launch =>
      refine .inr ⟨l.parts.length, fun j hj => ?_, fun hp => by contradiction⟩
      rcases getElem?_of_append hj with ⟨hi, _⟩ | hj
      · exact hi
      · exact absurd hj (quiet j)
    | move m =>
      cases m with
      | leave => exact .inl ⟨stopped, opened⟩
      | stop =>
        refine .inr ⟨0, fun j hj => ?_, fun hp => by contradiction⟩
        exact absurd (loop_of_put Part.noConfusion hj) (quiet j)
      | joined => exact .inl ⟨stopped, opened⟩
      | finish entry =>
        have stopping := (sound.awaited entry).1
        rw [stopped] at stopping
        contradiction
  · exact .inr ⟨i, step.launched sound h⟩

end Lifecycle

/-- In every reachable state in which a loop lives, it is the only one that was ever started. -/
theorem Made.launched {s₀ : State} (made : Made s₀) (actions : List Action) {i : ActivityId}
    {l : Loop} {cancelled : Bool} (h : (s₀.run actions).activity? i = some (.loop l cancelled)) :
    (s₀.run actions).lifecycle.Launched i := by
  have hu := made.untouched
  have fresh : (s₀.run actions).lifecycle.Sound ∧
      (((s₀.run actions).lifecycle.phase = .stopped ∧
        (s₀.run actions).lifecycle.closed = false) ∨
          ∃ i, (s₀.run actions).lifecycle.Launched i) :=
    s₀.lifecycle_run_keeps
      (P := fun l => l.Sound ∧ ((l.phase = .stopped ∧ l.closed = false) ∨ ∃ i, l.Launched i))
      (fun step hl => ⟨step.sound hl.1, step.fresh_or_launched hl.1 hl.2⟩)
      ⟨made.sound [], .inl ⟨hu.phase, hu.closed⟩⟩ actions
  have entry := State.part_of_activity h
  obtain ⟨sound, ⟨stopped, _⟩ | ⟨j, launched⟩⟩ := fresh
  · exact absurd stopped (sound.loops entry).1
  · have hj : i = j := launched.loops i entry
    rw [hj]
    exact launched

namespace State

variable {s t u v : State} {i me : ActivityId}

/-- Whatever happens, no other loop is started. -/
theorem launched_run (sound : s.lifecycle.Sound) (h : s.lifecycle.Launched i)
    (later : List Action) : (s.run later).lifecycle.Launched i :=
  (s.lifecycle_run_keeps (P := fun l => l.Sound ∧ l.Launched i)
    (fun step hl => ⟨step.sound hl.1, step.launched hl.1 hl.2⟩) ⟨sound, h⟩ later).2

/-- A closed publisher stays closed. -/
theorem closed_run (closed : s.closed = true) (later : List Action) :
    (s.run later).closed = true :=
  s.lifecycle_run_keeps (P := fun l => l.closed = true) (fun step => step.closed) closed later

/-- A closed publisher accepts nothing. -/
theorem taken_of_closed (closed : s.closed = true) (later : List Action) : s.taken later = [] := by
  induction later generalizing s with
  | nil => rfl
  | cons a rest ih =>
    have refused : s.answer a = [] := by
      rcases a.offer_or with ⟨e, rfl⟩ | other
      · rw [answer, (offer_of_closed closed e).1, if_neg Bool.false_ne_true]
      · exact s.answer_of_ne_offer other
    have still : (s.apply a).closed = true := closed_run closed [a]
    rw [taken, refused, ih still, List.append_nil]

/-- The queue of a closed publisher does not grow. -/
theorem length_queue_of_closed (closed : s.closed = true) (later : List Action) :
    (s.run later).queueLength ≤ s.queueLength := by
  have suffix := s.queue_run_suffix later
  rw [taken_of_closed closed, List.append_nil] at suffix
  exact suffix.length_le

/-- A publisher that cannot be started any more answers a start with a report and nothing else. -/
theorem start_of_closed (closed : s.closed = true) (runtime : Bool) :
    (s.start runtime).2 = .ok () ∧ ∃ n, (s.start runtime).1 = s.report n := by
  unfold start
  cases s.enabled with
  | false => exact ⟨rfl, _, rfl⟩
  | true =>
    rw [closed]
    exact ⟨rfl, _, rfl⟩

/-- A shutdown that may begin closes the publisher when it runs. -/
theorem closed_of_begin (called : s.activity? me = some (.shutdown .called)) {p : Phase}
    (allowed : s.phase.next? .stop = some p) (step : s.step? me = some t) : t.closed = true := by
  have steps := steps_of_step step
  cases steps with
  | cut ha => cases called.symm.trans ha
  | loop ha => cases called.symm.trans ha
  | goes ha => cases called.symm.trans ha
  | ends ha => cases called.symm.trans ha
  | breaks ha => cases called.symm.trans ha
  | shutdown ha steps =>
    cases called.symm.trans ha
    cases steps with
    | again refused =>
      rw [move?, allowed] at refused
      contradiction
    | begin => rfl
    | await => rfl

end State

/-- The counter of accepted events does not change while nothing is accepted. -/
theorem Made.accepted_of_closed {s₀ : State} (made : Made s₀) {before later : List Action}
    (closed : (s₀.run before).closed = true) :
    ((s₀.run before).run later).stats.accepted = (s₀.run before).stats.accepted := by
  have now := (made.counted before).accepted
  have after := (made.counted (before ++ later)).accepted
  rw [State.run_append, State.accepted_run, State.taken_of_closed closed, List.append_nil] at after
  exact after.trans now.symm

/-- A publisher never has more than one loop in its whole life. From the moment at which the
transition of a shutdown succeeds, and at every later moment, every offer is refused, the counter of
accepted events stays as it is, the queue does not grow, the publisher is not running, and a start
is answered without an error and does nothing but report. -/
theorem closing_is_permanent {s₀ : State} (made : Made s₀) (actions : List Action) :
    (∃ i, ∀ u ∈ s₀.moments actions, ∀ j l cancelled,
      u.activity? j = some (.loop l cancelled) → j = i) ∧
    ∀ u ∈ s₀.moments actions, ∀ me p v, u.activity? me = some (.shutdown .called) →
      u.phase.next? .stop = some p → u.step? me = some v → ∀ later, ∀ t ∈ v.moments later,
        (∀ e, (t.offer e).2 = false) ∧
        t.stats.accepted = v.stats.accepted ∧
        (∀ more, (t.run more).queueLength ≤ t.queueLength) ∧
        t.phase ≠ .running ∧
        ∀ runtime, (t.start runtime).2 = .ok () ∧ ∃ n, (t.start runtime).1 = t.report n := by
  constructor
  · by_cases any : ∃ u ∈ s₀.moments actions, ∃ i l c, u.activity? i = some (.loop l c)
    · obtain ⟨u, hu, i, l, c, hi⟩ := any
      refine ⟨i, fun v hv j l' c' hj => ?_⟩
      -- The loop of the earlier moment is the only one that the later moment can show.
      obtain ⟨before, _, rfl, _⟩ := State.exists_of_mem_moments hu
      obtain ⟨before', _, rfl, _⟩ := State.exists_of_mem_moments hv
      rcases State.moments_ordered hu hv with ⟨later, hl⟩ | ⟨later, hl⟩
      · have known := State.launched_run (made.sound before) (made.launched before hi) later
        rw [hl] at known
        exact known.loops j (State.part_of_activity hj)
      · have known := State.launched_run (made.sound before') (made.launched before' hj) later
        rw [hl] at known
        exact (known.loops i (State.part_of_activity hi)).symm
    · exact ⟨0, fun u hu j l c hj => absurd ⟨u, hu, j, l, c, hj⟩ any⟩
  · intro u hu me p v called allowed step later t ht
    obtain ⟨before, _, rfl, _⟩ := State.exists_of_mem_moments hu
    have hv : v = s₀.run (before ++ [.step me]) := by
      rw [State.run_append, State.run_cons, State.run_nil, State.apply_step step]
    have shut : v.closed = true := State.closed_of_begin called allowed step
    obtain ⟨during, _, rfl, _⟩ := State.exists_of_mem_moments ht
    have closed : (v.run during).closed = true := State.closed_run shut during
    have sound : (v.run during).lifecycle.Sound := by
      rw [hv, ← State.run_append]
      exact made.sound _
    refine ⟨fun e => (State.offer_of_closed closed e).1, ?_,
      fun more => State.length_queue_of_closed closed more, fun running => ?_,
      fun runtime => State.start_of_closed closed runtime⟩
    · rw [hv] at shut ⊢
      exact made.accepted_of_closed shut
    · have opened := (sound.running running).1
      rw [show (v.run during).lifecycle.closed = true from closed] at opened
      contradiction

/-- The loop is started and parks, an event is offered, and a shutdown is called. -/
def runThenShutdown : List Action := [.start true, .poll 0] ++ offers 1 ++ [.shutdown]

/-- A shutdown of a running publisher closes it when it begins. After it has returned the phase is
the one from which a start is possible, and still an offer is refused and a start does nothing. -/
theorem shutdown_closes_running_publisher :
    let s := (small []).run runThenShutdown
    Made (small []) ∧ s.activity? 1 = some (.shutdown .called) ∧
    s.phase.next? .stop = some .stopping ∧ ∃ v, s.step? 1 = some v ∧
      (v.run [.poll 0, .poll 1]).phase = .stopped ∧
      (∀ e, ((v.run [.poll 0, .poll 1]).offer e).2 = false) ∧
      ∃ n, ((v.run [.poll 0, .poll 1]).start true).1 = (v.run [.poll 0, .poll 1]).report n := by
  intro s
  have called : s.activity? 1 = some (.shutdown .called) := rfl
  have allowed : s.phase.next? .stop = some .stopping := rfl
  obtain ⟨v, step⟩ : ∃ v, s.step? 1 = some v := ⟨_, rfl⟩
  have closed := (closing_is_permanent (made_small []) runThenShutdown).2 s
    ((small []).run_mem_moments _) 1 .stopping v called allowed step [.poll 0, .poll 1] _
    (v.run_mem_moments _)
  refine ⟨made_small [], called, allowed, v, step, ?_, closed.1, (closed.2.2.2.2 true).2⟩
  cases step
  rfl

end EventRelay.Publisher
