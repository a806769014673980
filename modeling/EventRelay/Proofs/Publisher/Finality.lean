import EventRelay.Proofs.Publisher.Conservation
import EventRelay.Proofs.Publisher.Phases

/-!
# A completed shutdown is final

A shutdown that has begun returns only when its final flush finds the queue empty. At that moment
the publisher is closed, no loop lives and nobody carries a batch, since whoever finds the queue
empty has the turn. Nothing that can happen afterwards changes this: offers are refused, and the
flush cycles that are still to come, of whatever call, find nothing to do.
-/

namespace EventRelay.Publisher

open Relation

/-- What is known of every reachable state. -/
structure State.Reached (s : State) : Prop where
  audited : Audited s.books
  sound : s.lifecycle.Sound

/-- A closed publisher with nothing queued, nothing in flight and no loop. -/
structure State.Final (s : State) : Prop where
  done : s.lifecycle.Done
  queue : s.queue = []
  idle : Carried s.settings s.books.posts none

theorem Made.reached {s : State} (made : Made s) (actions : List Action) :
    (s.run actions).Reached :=
  ⟨made.audited actions, made.sound actions⟩

/-- Where nothing is queued or carried, activities have nothing to do but to come and go. -/
theorem Books.Work.still {b b' : Books} (w : b.Work b') (queue : b.queue = [])
    (idle : Carried b.settings b.posts none) :
    b'.queue = [] ∧ b'.tale = b.tale ∧ b'.stats = b.stats ∧
      Carried b'.settings b'.posts none := by
  have nobody {me : ActivityId} {p : Post} {c : Cycle} {batch : Envelope} {P : Prop}
      (entry : b.posts[me]? = some p) (hc : p.cycle = some c) (hb : c.batch? = some batch) : P := by
    obtain ⟨sh, hn, _⟩ := idle.known ((cycleAt_of_entry entry).trans hc) hb
    contradiction
  cases w with
  | join hi => exact ⟨queue, rfl, rfl, idle.append hi⟩
  | shift entry _ hs => exact ⟨queue, rfl, rfl, idle.shift entry hs⟩
  | discard _ _ _ _ queued => exact absurd queue queued
  | ship _ queued => exact absurd queue queued
  | retry entry => exact nobody entry rfl rfl
  | resume entry => exact nobody entry rfl rfl
  | settle entry => exact nobody entry rfl rfl
  | forgo entry => exact nobody entry rfl rfl

namespace State

variable {s t : State} {me i : ActivityId}

/-- A closed publisher refuses every event. -/
theorem offer_of_closed (h : s.closed = true) (e : Event) :
    (s.offer e).2 = false ∧ (s.offer e).1.books = s.books.offer e .rejected := by
  unfold offer
  rw [h, Bool.or_true, if_pos rfl]
  exact ⟨rfl, rfl⟩

theorem Reached.offer (h : s.Reached) (e : Event) : (s.offer e).1.Reached := by
  refine ⟨(s.step_of_offer e).audited h.audited, ?_⟩
  rw [lifecycle_offer]
  exact h.sound

theorem Reached.acts (h : s.Reached) (act : Acts s t) : t.Reached := by
  constructor
  · rcases (reflGen_iff _ _ _).mp (work_of_acts act) with he | w
    · rw [he]
      exact h.audited
    · exact (Books.Step.work w).audited h.audited
  · exact sound_of_acts act h.sound

theorem Reached.run (h : s.Reached) (later : List Action) : (s.run later).Reached :=
  run_keeps (fun e h => h.offer e) (fun act h => h.acts act) h later

namespace Final

theorem closed (h : s.Final) : s.closed = true := h.done.closed

/-- An offer changes nothing of this. -/
theorem offer (h : s.Final) (e : Event) : (s.offer e).1.Final := by
  obtain ⟨_, hb⟩ := offer_of_closed h.closed e
  refine ⟨?_, ?_, ?_⟩
  · rw [lifecycle_offer]
    exact h.done
  · exact (congrArg Books.queue hb).trans h.queue
  · have hs : (s.offer e).1.settings = s.settings := congrArg Books.settings hb
    have hp : (s.offer e).1.books.posts = s.books.posts := by
      rw [hb]
      rfl
    rw [hs, hp]
    exact h.idle

/-- An offer is no delivery. -/
theorem deliveries_offer (h : s.Final) (e : Event) :
    deliveries (s.offer e).1.history = deliveries s.history := by
  rw [← deliveries_tale, ← deliveries_tale, (offer_of_closed h.closed e).2]
  exact reading_skip rfl

/-- Nothing else that happens changes it either, and nothing is delivered or counted. -/
theorem acts (h : s.Final) (act : Acts s t) :
    t.Final ∧ deliveries t.history = deliveries s.history := by
  have done : t.lifecycle.Done := by
    rcases (reflGen_iff _ _ _).mp (lifecycle_of_acts act) with he | step
    · rw [he]
      exact h.done
    · exact step.done h.done
  rw [← deliveries_tale, ← deliveries_tale]
  rcases (reflGen_iff _ _ _).mp (work_of_acts act) with he | w
  · have hq : t.queue = s.queue := congrArg Books.queue he
    have hs : t.settings = s.settings := congrArg Books.settings he
    rw [he]
    refine ⟨⟨done, hq.trans h.queue, ?_⟩, rfl⟩
    rw [hs, he]
    exact h.idle
  · obtain ⟨hq, ht, _, hi⟩ := w.still h.queue h.idle
    rw [ht]
    exact ⟨⟨done, hq, hi⟩, rfl⟩

/-- A final state remains one, and nothing is handed over any more. -/
theorem run (h : s.Final) (later : List Action) :
    (s.run later).Final ∧ deliveries (s.run later).history = deliveries s.history := by
  refine run_keeps
    (P := fun t => t.Final ∧ deliveries t.history = deliveries s.history)
    (fun {t} e ht => ?_) (fun {t u} act ht => ?_) ⟨h, rfl⟩ later
  · exact ⟨ht.1.offer e, (ht.1.deliveries_offer e).trans ht.2⟩
  · obtain ⟨hu, hd⟩ := ht.1.acts act
    exact ⟨hu, hd.trans ht.2⟩

end Final

/-- Whoever has the turn and finds the queue empty is the only one inside, so that with a shutdown
in this position everything is over. -/
theorem Reached.final (h : s.Reached) {sent lost : Nat}
    (ha : s.activity? me = some (.shutdown (.flushing .admitted sent lost)))
    (queue : s.queue = []) : s.Final := by
  obtain ⟨past, now, accounts⟩ := h.audited.accounts
  have hn : now = none := accounts.alone h.audited.line (entry_of_activity ha)
  subst hn
  exact ⟨h.sound.done (part_of_activity ha), queue, accounts.carried⟩

/-- A shutdown that has begun is still at it, has been cut off, or has left everything over. -/
def Settling (me : ActivityId) (s : State) : Prop :=
  (∃ awaits, s.lifecycle.parts[me]? = some (.stopping awaits)) ∨
    (∃ c, c ≠ .stopped ∧ s.lifecycle.parts[me]? = some (.ended c)) ∨ s.Final

/-- The part of an activity after it was replaced. -/
theorem part_setActivity {u : State} (hu : u.lifecycle = s.lifecycle) {a : Activity}
    (ha : s.activity? me = some a) (a' : Activity) :
    (u.setActivity me a').lifecycle.parts[me]? = some a'.part := by
  rw [lifecycle_setActivity, hu]
  exact getElem?_set_of_some (part_of_activity ha) a'.part

end State

namespace Cycle

variable {s t : State} {me : ActivityId} {retry : Bool} {c : Cycle}

/-- Only an empty queue makes a flush cycle end with nothing to do. -/
theorem admitted_of_empty (h : c.step s me retry = .ends t .empty) :
    c = .admitted ∧ s.queue = [] := by
  have step := steps_of_step h
  cases step with
  | empty nothing => exact ⟨rfl, nothing⟩

/-- Without a queue and without a batch a flush cycle can only end with nothing to do. -/
theorem outcome_of_still {o : Outcome} (h : c.step s me retry = .ends t o) (queue : s.queue = [])
    (still : c.batch? = none) : o = .empty := by
  have step := steps_of_step h
  cases step with
  | empty nothing => rfl
  | discard queued => exact absurd queue queued
  | deliver => contradiction
  | drop => contradiction

end Cycle

namespace Shutdown

variable {s t : State} {me : ActivityId}

/-- A shutdown that makes a step settles. -/
theorem settling_of_step {d : Shutdown} (reached : s.Reached)
    (ha : s.activity? me = some (.shutdown d)) (begun : d ≠ .called)
    (h : s.step? me = some t) (step : d.Steps s me t) : t.Settling me := by
  have stopping {u : State} (hu : u.lifecycle = s.lifecycle) {d' : Shutdown}
      {awaits : Option ActivityId} (hd : (Activity.shutdown d').part = .stopping awaits) :
      (u.setShutdown me d').Settling me :=
    .inl ⟨awaits, hd ▸ State.part_setActivity hu ha (.shutdown d')⟩
  cases step with
  | again => exact absurd rfl begun
  | begin => exact absurd rfl begun
  | await => exact absurd rfl begun
  | join gone => exact stopping rfl rfl
  | @overdue loop deadline alive late =>
    exact stopping ((lifecycle_cancelLoop _ loop).trans (s.lifecycle_report _)) rfl
  | joinLate gone => exact stopping rfl rfl
  | goes hc => exact stopping (Cycle.lifecycle_of_step hc) rfl
  | finish hc moved =>
    obtain ⟨rfl, queue⟩ := Cycle.admitted_of_empty hc
    exact .inr (.inr ((reached.final ha queue).acts (.step h)).1)
  | sent hc => exact stopping (Cycle.lifecycle_of_step hc) rfl
  | lost hc => exact stopping (Cycle.lifecycle_of_step hc) rfl
  | breaks hc =>
    have hl := Cycle.lifecycle_of_step hc
    exact .inr (.inl ⟨.broken, Closing.noConfusion, State.part_setActivity hl ha _⟩)

end Shutdown

namespace State

variable {s t : State} {me i : ActivityId}

/-- An activity keeps its part unless it makes a step or, not being the loop, is cut off. -/
theorem part_of_acts {p : Part} (act : Acts s t) (h : s.lifecycle.parts[me]? = some p) :
    t.lifecycle.parts[me]? = some p ∨ s.step? me = some t ∨
      ((∀ l c, s.activity? me ≠ some (.loop l c)) ∧ t = s.cancel me) := by
  cases act with
  | start runtime =>
    left
    rcases s.lifecycle_start runtime with he | ⟨_, _, he⟩
    · rw [he]
      exact h
    · rw [he]
      exact getElem?_append_of_some h .loop
  | callFlush =>
    left
    rw [callFlush, lifecycle_addActivity]
    exact getElem?_append_of_some h _
  | callShutdown =>
    left
    rw [callShutdown, lifecycle_addActivity]
    exact getElem?_append_of_some h _
  | @step _ i hs =>
    by_cases hi : me = i
    · subst hi
      exact .inr (.inl hs)
    · left
      rcases (reflGen_iff _ _ _).mp (move_of_step hs) with he | move
      · rw [he]
        exact h
      · rw [move.others hi]
        exact h
  | @cancel i other =>
    by_cases hi : me = i
    · subst hi
      exact .inr (.inr ⟨other, rfl⟩)
    · left
      rcases (reflGen_iff _ _ _).mp (s.move_of_cancel i) with he | move
      · rw [he]
        exact h
      · rw [move.others hi]
        exact h
  | elapse millis => exact .inl h

/-- An activity that has ended remains so. -/
theorem ended_of_acts {c : Closing} (act : Acts s t) (h : s.activity? me = some (.ended c)) :
    t.activity? me = some (.ended c) := by
  have entry := part_of_activity h
  rcases part_of_acts act entry with kept | hs | ⟨_, rfl⟩
  · exact ended_of_part kept
  · rw [step?, h] at hs
    contradiction
  · rw [cancel, h]
    exact h

/-- A shutdown that has begun settles, whatever happens. -/
theorem Settling.acts (settling : s.Settling me) (reached : s.Reached) (act : Acts s t) :
    t.Settling me := by
  rcases settling with ⟨awaits, hp⟩ | ⟨c, hc, hp⟩ | final
  · rcases part_of_acts act hp with kept | hs | ⟨_, rfl⟩
    · exact .inl ⟨awaits, kept⟩
    · obtain ⟨d, ha, begun⟩ := begun_of_part hp
      have step := hs
      rw [step?, ha] at step
      exact Shutdown.settling_of_step reached ha begun hs (Shutdown.steps_of_step step)
    · obtain ⟨d, ha, _⟩ := begun_of_part hp
      rw [cancel, ha]
      exact .inr (.inl ⟨.cancelled, Closing.noConfusion,
        part_setActivity (d.lifecycle_cancel s me) ha _⟩)
  · exact .inr (.inl ⟨c, hc, part_of_activity (ended_of_acts act (ended_of_part hp))⟩)
  · exact .inr (.inr (final.acts act).1)

theorem Settling.offer (settling : s.Settling me) (e : Event) : (s.offer e).1.Settling me := by
  rcases settling with ⟨awaits, hp⟩ | ⟨c, hc, hp⟩ | final
  · exact .inl ⟨awaits, by rw [lifecycle_offer, hp]⟩
  · exact .inr (.inl ⟨c, hc, by rw [lifecycle_offer, hp]⟩)
  · exact .inr (.inr (final.offer e))

/-- A shutdown that was seen at work and has returned leaves everything over. -/
theorem Reached.final_of_returned (reached : s.Reached) {d : Shutdown}
    (begun : s.activity? me = some (.shutdown d)) (moved : d ≠ .called) {during : List Action}
    (returned : (s.run during).activity? me = some (.ended .stopped)) : (s.run during).Final := by
  have start : s.Settling me := .inl (part_of_begun begun moved)
  have settled : (s.run during).Reached ∧ (s.run during).Settling me :=
    run_keeps (P := fun t => t.Reached ∧ t.Settling me)
      (fun e ht => ⟨ht.1.offer e, ht.2.offer e⟩)
      (fun act ht => ⟨ht.1.acts act, ht.2.acts ht.1 act⟩) ⟨reached, start⟩ during
  have hp := part_of_activity returned
  rcases settled.2 with ⟨awaits, hs⟩ | ⟨c, hc, he⟩ | final
  · cases hs.symm.trans hp
  · cases he.symm.trans hp
    exact absurd rfl hc
  · exact final

end State

end EventRelay.Publisher
