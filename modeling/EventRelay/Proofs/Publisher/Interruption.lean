import EventRelay.Proofs.Publisher.Returning

/-!
# Interrupted shutdowns

A shutdown changes the phase when it begins and once more when it returns. If it is cut off or taken
down in between, the publisher is stopping and nobody is at it. That state is never left: a start
and another shutdown are refused in it, and only a shutdown in progress leads out of this phase. A
new shutdown therefore returns at once and leaves the queue as it is. If none was interrupted, the
new one begins, and when it returns the publisher is stopped and nothing is queued.
-/

namespace EventRelay.Publisher

open Relation

namespace Lifecycle

variable {l l' : Lifecycle} {me i : ActivityId}

/-- The publisher is stopping, and no shutdown is in progress. -/
structure Abandoned (l : Lifecycle) : Prop where
  stopping : l.phase = .stopping
  nobody : ∀ (i : ActivityId) (awaits : Option ActivityId), l.parts[i]? ≠ some (.stopping awaits)

/-- An abandoned publisher remains one. -/
theorem Step.abandoned (step : l.Step l') (h : l.Abandoned) : l'.Abandoned := by
  cases step with
  | join call =>
    refine ⟨h.stopping, fun i awaits hi => ?_⟩
    rcases getElem?_of_append hi with ⟨_, rfl⟩ | hi
    · rcases call with hp | hp <;> contradiction
    · exact h.nobody i awaits hi
  | launch opened allowed =>
    rw [h.stopping] at allowed
    contradiction
  | move m =>
    cases m with
    | leave =>
      refine ⟨h.stopping, fun i awaits hi => ?_⟩
      rcases getElem?_of_set hi with ⟨_, hp⟩ | ⟨_, hi⟩
      · contradiction
      · exact h.nobody i awaits hi
    | stop _ allowed => exact absurd h.stopping allowed
    | joined entry => exact absurd entry (h.nobody _ _)
    | finish entry => exact absurd entry (h.nobody _ _)

/-- A publisher is abandoned when its shutdown ends without having returned. -/
theorem Step.interrupts (step : l.Step l') (sound : l.Sound) (before : ¬ l.Abandoned)
    (after : l'.Abandoned) : ∃ (i : ActivityId) (awaits : Option ActivityId) (c : Closing),
      l.parts[i]? = some (.stopping awaits) ∧ l'.parts[i]? = some (.ended c) ∧ c ≠ .stopped := by
  have stopping := after.stopping
  cases step with
  | join call =>
    refine absurd ⟨stopping, fun i awaits hi => ?_⟩ before
    exact after.nobody i awaits (getElem?_append_of_some hi _)
  | launch => contradiction
  | @move _ me m =>
    cases m with
    | @leave p c entry ends =>
      -- Some shutdown is in progress before, and remains so if it is not the one that ends.
      have busy : ∃ (i : ActivityId) (awaits : Option ActivityId),
          l.parts[i]? = some (.stopping awaits) := by
        by_contra none
        exact before ⟨stopping, fun i awaits hi => none ⟨i, awaits, hi⟩⟩
      obtain ⟨i, awaits, hi⟩ := busy
      by_cases him : i = me
      · subst him
        refine ⟨i, awaits, c, hi, getElem?_set_of_some entry _, fun hc => ?_⟩
        cases entry.symm.trans hi
        rw [hc] at ends
        contradiction
      · have still : (l.put me (.ended c)).parts[i]? = some (.stopping awaits) := by
          rw [← hi]
          exact List.getElem?_set_ne (Ne.symm him)
        exact absurd still (after.nobody i awaits)
    | stop entry => exact absurd (getElem?_set_of_some entry _) (after.nobody _ _)
    | joined entry => exact absurd (getElem?_set_of_some entry _) (after.nobody _ _)
    | finish entry =>
      have finished : ((l.phase.next? .finish).getD l.phase) = .stopping := stopping
      rw [(sound.awaited entry).1] at finished
      contradiction

/-- An activity that has ended does not move. -/
theorem Move.entry_ne_ended (move : Move me l l') {c : Closing} :
    l.parts[me]? ≠ some (.ended c) := by
  intro h
  cases move with
  | leave entry ends =>
    cases entry.symm.trans h
    contradiction
  | stop entry => cases entry.symm.trans h
  | joined entry => cases entry.symm.trans h
  | finish entry => cases entry.symm.trans h

/-- An activity that has ended remains so. -/
theorem Step.ended (step : l.Step l') {c : Closing} (h : l.parts[i]? = some (.ended c)) :
    l'.parts[i]? = some (.ended c) := by
  cases step with
  | join => exact getElem?_append_of_some h _
  | launch => exact getElem?_append_of_some h _
  | @move _ me m =>
    have other : i ≠ me := by
      rintro rfl
      exact m.entry_ne_ended h
    exact (m.others other).trans h

/-- A shutdown is in progress, has returned, or was interrupted, and then the publisher is
abandoned. -/
def Engaged (i : ActivityId) (l : Lifecycle) : Prop :=
  (∃ awaits, l.parts[i]? = some (.stopping awaits)) ∨
    ∃ c, l.parts[i]? = some (.ended c) ∧ (c = .stopped ∨ l.Abandoned)

/-- A shutdown in progress that moves goes on, returns, or leaves the publisher abandoned. -/
private theorem Move.engaged (move : Move me l l') (sound : l.Sound) {awaits : Option ActivityId}
    (h : l.parts[me]? = some (.stopping awaits)) : l'.Engaged me := by
  cases move with
  | @leave p c entry ends =>
    refine .inr ⟨c, getElem?_set_of_some entry _, .inr ⟨(sound.awaited h).1, fun i a hi => ?_⟩⟩
    rcases getElem?_of_set hi with ⟨_, hp⟩ | ⟨other, hi⟩
    · contradiction
    · exact other (sound.alone hi h)
  | stop entry => cases entry.symm.trans h
  | joined entry => exact .inl ⟨none, getElem?_set_of_some entry _⟩
  | finish entry => exact .inr ⟨.stopped, getElem?_set_of_some entry _, .inl rfl⟩

/-- Whatever happens, a shutdown stays engaged. -/
theorem Step.engaged (step : l.Step l') (sound : l.Sound) (h : l.Engaged i) : l'.Engaged i := by
  rcases h with ⟨awaits, hi⟩ | ⟨c, ended, returned | abandoned⟩
  · cases step with
    | join => exact .inl ⟨awaits, getElem?_append_of_some hi _⟩
    | launch => exact .inl ⟨awaits, getElem?_append_of_some hi _⟩
    | @move _ me m =>
      by_cases him : i = me
      · subst him
        exact m.engaged sound hi
      · exact .inl ⟨awaits, (m.others him).trans hi⟩
  · exact .inr ⟨c, step.ended ended, .inl returned⟩
  · exact .inr ⟨c, step.ended ended, .inr (step.abandoned abandoned)⟩

/-- A shutdown in progress that returns stops the publisher. -/
theorem Move.stopped_of_returned (move : Move me l l') (sound : l.Sound)
    {awaits : Option ActivityId} (h : l.parts[me]? = some (.stopping awaits))
    (returned : l'.parts[me]? = some (.ended .stopped)) : l'.phase = .stopped := by
  cases move with
  | @leave p c entry ends =>
    cases (getElem?_set_of_some entry (Part.ended c)).symm.trans returned
    cases entry.symm.trans h
    contradiction
  | stop entry => cases entry.symm.trans h
  | joined entry => cases (getElem?_set_of_some entry (Part.stopping none)).symm.trans returned
  | finish entry =>
    change (l.phase.next? .finish).getD l.phase = .stopped
    rw [(sound.awaited h).1]
    rfl

end Lifecycle

/-- A shutdown that had begun was cut off or taken down. -/
def State.Interrupted (s₀ : State) (actions : List Action) : Prop :=
  ∃ u ∈ s₀.moments actions, ∃ i d c, u.activity? i = some (.shutdown d) ∧ d ≠ .called ∧
    (s₀.run actions).activity? i = some (.ended c) ∧ c ≠ .stopped

namespace State

variable {s : State} {i : ActivityId}

/-- Whatever happens, a shutdown that has begun stays engaged. -/
theorem engaged_run (sound : s.lifecycle.Sound) (engaged : s.lifecycle.Engaged i)
    (later : List Action) : (s.run later).lifecycle.Engaged i :=
  (s.lifecycle_run_keeps (P := fun l => l.Sound ∧ l.Engaged i)
    (fun step h => ⟨step.sound h.1, step.engaged h.1 h.2⟩) ⟨sound, engaged⟩ later).2

/-- An abandoned publisher remains one. -/
theorem abandoned_run (abandoned : s.lifecycle.Abandoned) (later : List Action) :
    (s.run later).lifecycle.Abandoned :=
  s.lifecycle_run_keeps Lifecycle.Step.abandoned abandoned later

end State

/-- A publisher is abandoned in the end exactly if a shutdown was interrupted on the way. -/
theorem Made.interrupted_iff {s₀ : State} (made : Made s₀) (actions : List Action) :
    s₀.Interrupted actions ↔ (s₀.run actions).lifecycle.Abandoned := by
  constructor
  · rintro ⟨u, moment, i, d, c, shutting, begun, ended, other⟩
    obtain ⟨before, during, rfl, hd⟩ := State.exists_of_mem_moments moment
    have engaged := State.engaged_run (made.sound before)
      (.inl (State.part_of_begun shutting begun)) during
    rw [hd] at engaged
    have entry := State.part_of_activity ended
    rcases engaged with ⟨awaits, stopping⟩ | ⟨c', ended', returned | abandoned⟩
    · cases stopping.symm.trans entry
    · cases ended'.symm.trans entry
      exact absurd returned other
    · exact abandoned
  · intro abandoned
    have fresh : ¬ s₀.lifecycle.Abandoned := by
      intro h
      have stopping : s₀.phase = .stopping := h.stopping
      rw [made.untouched.phase] at stopping
      contradiction
    obtain ⟨u, moment, v, later, act, before, after, hv⟩ :=
      State.exists_onset (P := fun s => s.lifecycle.Abandoned)
        (fun {s} e h => by rwa [s.lifecycle_offer] at h) fresh abandoned
    have sound : u.lifecycle.Sound := by
      obtain ⟨earlier, _, rfl, _⟩ := State.exists_of_mem_moments moment
      exact made.sound earlier
    rcases (reflGen_iff _ _ _).mp (State.lifecycle_of_acts act) with same | step
    · rw [same] at after
      exact absurd after before
    · obtain ⟨i, awaits, c, stopping, ended, other⟩ := step.interrupts sound before after
      obtain ⟨d, shutting, begun⟩ := State.begun_of_part stopping
      refine ⟨u, moment, i, d, c, shutting, begun, ?_, other⟩
      rw [← hv]
      exact State.ended_run (State.ended_of_part ended) later

namespace State

variable {s t v : State} {me : ActivityId}

/-- A shutdown that may not begin returns with its first step and changes nothing else. -/
theorem returns_of_called (called : s.activity? me = some (.shutdown .called))
    (refused : s.phase = .stopping) :
    s.step? me = some ((s.report (.stopRepeated s.phase)).close me .stopped) := by
  have none : s.move? .stop = none := by
    rw [move?, refused]
    rfl
  rw [step?, called]
  simp only [Shutdown.step?, none]

/-- A shutdown that has begun and returns leaves the publisher stopped and nothing queued. -/
theorem Reached.stopped_of_returned (reached : s.Reached) {d : Shutdown}
    (shutting : s.activity? me = some (.shutdown d)) (begun : d ≠ .called) {during : List Action}
    (step : (s.run during).step? me = some t) (returned : t.activity? me = some (.ended .stopped)) :
    t.phase = .stopped ∧ t.queue = [] := by
  have engaged := engaged_run reached.sound (.inl (part_of_begun shutting begun)) during
  have entry : ∃ awaits, (s.run during).lifecycle.parts[me]? = some (.stopping awaits) := by
    rcases engaged with busy | ⟨c, ended, _⟩
    · exact busy
    · rw [step?, ended_of_part ended] at step
      contradiction
  obtain ⟨awaits, entry⟩ := entry
  have after := part_of_activity returned
  constructor
  · rcases (reflGen_iff _ _ _).mp (move_of_step step) with same | move
    · rw [same] at after
      cases entry.symm.trans after
    · exact move.stopped_of_returned (reached.run during).sound entry after
  · have ht : t = s.run (during ++ [.step me]) := by
      rw [run_append, run_cons, run_nil, apply_step step]
    rw [ht] at returned ⊢
    exact (reached.final_of_returned shutting begun returned).queue

end State

/-- A new shutdown runs while none is in progress. If none that had begun was interrupted before,
the new one begins, it can return unless the transport breaks down, and when it returns the
publisher is stopped and nothing is queued. If one was interrupted, the new one returns at once and
leaves the queue as it is, and the publisher is stopping for ever. -/
theorem new_shutdown_completes_unless_interrupted {s₀ : State} (made : Made s₀)
    (actions : List Action) {me : ActivityId}
    (idle : ∀ i d, (s₀.run actions).activity? i = some (.shutdown d) → d = .called)
    (called : (s₀.run actions).activity? me = some (.shutdown .called)) :
    ∃ v, (s₀.run actions).step? me = some v ∧
      (¬ s₀.Interrupted actions →
        (v.Steady → v.CanReturn me) ∧
        ∀ during t, (v.run during).step? me = some t → t.activity? me = some (.ended .stopped) →
          t.phase = .stopped ∧ t.queue = []) ∧
      (s₀.Interrupted actions →
        v.activity? me = some (.ended .stopped) ∧ v.queue = (s₀.run actions).queue ∧
        ∀ later, (v.run later).phase = .stopping) := by
  by_cases interrupted : s₀.Interrupted actions
  · have abandoned := (made.interrupted_iff actions).mp interrupted
    refine ⟨_, State.returns_of_called called abandoned.stopping,
      fun smooth => absurd interrupted smooth, fun _ => ⟨getElem?_set_of_some called _, rfl, ?_⟩⟩
    intro later
    have still := State.abandoned_run abandoned (.step me :: later)
    rw [State.run_cons,
      State.apply_step (State.returns_of_called called abandoned.stopping)] at still
    exact still.stopping
  · have allowed : (s₀.run actions).phase ≠ .stopping := by
      intro stopping
      refine interrupted ((made.interrupted_iff actions).mpr ⟨stopping, fun i awaits hi => ?_⟩)
      obtain ⟨d, shutting, begun⟩ := State.begun_of_part hi
      exact begun (idle i d shutting)
    obtain ⟨u, d, moved, step, stages⟩ := State.begins_of_called called allowed
    have shutting := (State.activity_of_begun called moved d).1
    have begun : d ≠ .called := by
      rcases stages with ⟨_, rfl⟩ | ⟨_, _, rfl⟩ <;> simp
    have reached := (made.reached actions).run [.step me]
    rw [State.run_cons, State.run_nil, State.apply_step step] at reached
    refine ⟨_, step, fun _ => ⟨fun steady => ?_, fun during t returns returned => ?_⟩,
      fun h => absurd h interrupted⟩
    · exact made.can_return actions called allowed step steady
    · exact reached.stopped_of_returned shutting begun returns returned

/-- Three events are offered, and a shutdown is called. -/
def offerThenShutdown : List Action := offers 3 ++ [.shutdown]

/-- The first shutdown of a publisher is not interrupted, and returns after two batches. -/
theorem first_shutdown_completes :
    let s := (small []).run offerThenShutdown
    Made (small []) ∧ (∀ i d, s.activity? i = some (.shutdown d) → d = .called) ∧
      s.activity? 0 = some (.shutdown .called) ∧ ¬ (small []).Interrupted offerThenShutdown ∧
      ∃ v, s.step? 0 = some v ∧ v.CanReturn 0 ∧
        ∃ t, (v.run (List.replicate 7 (.step 0))).step? 0 = some t ∧ t.phase = .stopped ∧
          t.queue = [] ∧ t.stats.eventsDelivered = 3 := by
  intro s
  have idle : ∀ i d, s.activity? i = some (.shutdown d) → d = .called := by
    intro i d h
    cases i with
    | zero =>
      cases h
      rfl
    | succ i => cases h
  have called : s.activity? 0 = some (.shutdown .called) := rfl
  have smooth : ¬ (small []).Interrupted offerThenShutdown := by
    rw [(made_small []).interrupted_iff]
    intro abandoned
    exact Phase.noConfusion abandoned.stopping
  obtain ⟨v, step, completes, _⟩ :=
    new_shutdown_completes_unless_interrupted (made_small []) offerThenShutdown idle called
  obtain ⟨returns, stops⟩ := completes smooth
  obtain rfl : s.apply (.step 0) = v := State.apply_step step
  have steady : (s.apply (.step 0)).Steady := by
    intro t ht
    have supplied : (s.apply (.step 0)).transport = some {} := by decide +kernel
    obtain rfl : {} = t := Option.some.inj (supplied.symm.trans ht)
    exact ⟨fun r hr => by contradiction, Ending.noConfusion⟩
  let w := (s.apply (.step 0)).run (List.replicate 7 (.step 0))
  obtain ⟨t, last⟩ : ∃ t, w.step? 0 = some t :=
    Option.isSome_iff_exists.mp (by decide +kernel)
  have after : w.apply (.step 0) = t := State.apply_step last
  have returned : t.activity? 0 = some (.ended .stopped) := by
    rw [← after]
    decide +kernel
  have delivered : t.stats.eventsDelivered = 3 := by
    rw [← after]
    decide +kernel
  obtain ⟨phase, queue⟩ := stops _ t last returned
  exact ⟨made_small [], idle, called, smooth, _, step, returns steady, t, last, phase, queue,
    delivered⟩

/-- Three events are offered. A shutdown is cut off while its first batch is under way, and another
one is called. -/
def cutThenShutdown : List Action :=
  offers 3 ++ [.shutdown, .poll 0, .elapse 10, .cancel 0, .shutdown]

/-- After a shutdown was cut off, a new one runs to its end, the publisher is still stopping, and an
event is left in the queue. -/
theorem shutdown_after_interruption_strands_event :
    let s := (small [⟨100, .success⟩]).run cutThenShutdown
    Made (small [⟨100, .success⟩]) ∧ (∀ i d, s.activity? i = some (.shutdown d) → d = .called) ∧
      s.activities = [.ended .cancelled, .shutdown .called] ∧
      (s.run [.poll 1]).activities = [.ended .cancelled, .ended .stopped] ∧
      (s.run [.poll 1]).phase = .stopping ∧ (s.run [.poll 1]).queue = [numbered 2] := by
  intro s
  have activities : s.activities = [.ended .cancelled, .shutdown .called] := by decide +kernel
  refine ⟨made_small _, fun i d h => ?_, activities, by decide +kernel, by decide +kernel,
    by decide +kernel⟩
  rw [State.activity?, activities] at h
  rcases i with _ | _ | i
  · cases h
  · cases h
    rfl
  · cases h

end EventRelay.Publisher
