import EventRelay.Proofs.Publisher.Finale
import EventRelay.Proofs.Publisher.Undisturbed
import EventRelay.Publisher.Completion

/-!
# Sessions

Left alone, an activity only waits for time, and a bound on its steps is a bound on how often it
waits. So a session is a run that comes to its end: of the events that are offered as many are taken
as the queue has room for, each flush settles the next batch of them, and the shutdown settles the
rest.
-/

namespace EventRelay.Publisher

open Relation

namespace State

variable {s t u : State} {me i : ActivityId}

/-- Left alone, an activity comes to its end in `Q` after at most a number of steps. Whenever it has
to wait it can make a step at its deadline. -/
inductive EndsWithin (me : ActivityId) (Q : State → Prop) : Nat → State → Prop
  /-- It has ended. -/
  | ended {s : State} {n : Nat} (ended : s.isEnded me = true) (final : Q s) : EndsWithin me Q n s
  /-- It makes a step. -/
  | step {s t : State} {n m : Nat} (hs : s.step? me = some t) (less : m < n)
    (rest : EndsWithin me Q m t) : EndsWithin me Q n s
  /-- It waits and makes a step after that. -/
  | wait {s t : State} {n m limit : Nat} (idle : s.step? me = none)
    (due : s.deadline me = some limit) (hs : (s.elapse (limit - s.now)).step? me = some t)
    (less : m < n) (fueled : m < s.fuel) (rest : EndsWithin me Q m t) : EndsWithin me Q n s

namespace EndsWithin

variable {Q : State → Prop} {n : Nat}

/-- An activity that runs until it has to wait comes to its end, or it waits for a time at which it
can make a step. -/
private theorem advance (h : EndsWithin me Q n s) : ∀ {fuel : Nat}, n ≤ fuel →
    (Q (s.advance me fuel) ∧ (s.advance me fuel).isEnded me = true) ∨
      ∃ t u limit m, s.advance me fuel = t ∧ t.deadline me = some limit ∧
        (t.elapse (limit - t.now)).step? me = some u ∧ m < n ∧ m < t.fuel ∧
          EndsWithin me Q m u := by
  induction h with
  | @ended s n ended final =>
    intro fuel _
    obtain ⟨c, ha⟩ : ∃ c, s.activity? me = some (.ended c) := by
      unfold isEnded at ended
      split at ended
      · next c ha => exact ⟨c, ha⟩
      · contradiction
    rw [advance_ended ha]
    exact .inl ⟨final, ended⟩
  | @step s t n m hs less rest ih =>
    intro fuel enough
    have more : m < fuel := Nat.lt_of_lt_of_le less enough
    obtain ⟨fuel, rfl⟩ := Nat.exists_eq_succ_of_ne_zero (Nat.ne_zero_of_lt more)
    rw [advance_step hs]
    rcases ih (Nat.le_of_lt_succ more) with ended | ⟨t, u, limit, k, ht, due, go, few, rest⟩
    · exact .inl ended
    · exact .inr ⟨t, u, limit, k, ht, due, go, Nat.lt_trans few less, rest⟩
  | @wait s t n m limit idle due hs less fueled rest _ =>
    intro fuel _
    have still : s.advance me fuel = s := by
      cases fuel with
      | zero => rfl
      | succ fuel => rw [State.advance, idle]
    exact .inr ⟨s, t, limit, m, still, due, hs, less, fueled, rest⟩

/-- An activity that can make a step is run to its end if the rounds are more than its steps. -/
theorem complete (h : EndsWithin me Q n t) (hs : s.step? me = some t) (fueled : n < s.fuel)
    {rounds : Nat} (enough : n < rounds) : Q (s.completeWithin me rounds) := by
  induction rounds generalizing s t n with
  | zero => contradiction
  | succ rounds ih =>
    obtain ⟨fuel, hf⟩ := Nat.exists_eq_succ_of_ne_zero (Nat.ne_zero_of_lt fueled)
    have polled : s.poll me = t.advance me fuel := by rw [poll, hf, advance_step hs]
    rw [hf] at fueled
    rw [completeWithin, polled]
    rcases h.advance (Nat.le_of_lt_succ fueled) with
      ⟨final, ended⟩ | ⟨u, v, limit, m, hu, due, go, few, fueled, rest⟩
    · have done : (t.advance me fuel).deadline me = none := by
        unfold isEnded at ended
        unfold deadline
        split at ended
        · next ha => rw [ha]
        · contradiction
      simp only [done]
      exact final
    · rw [hu]
      simp only [due]
      exact ih rest go fueled (Nat.lt_of_lt_of_le few (Nat.le_of_lt_succ enough))

end EndsWithin

/-- What the steps of an activity and the passing of time keep is kept until it has to wait no
more. -/
theorem completeWithin_keeps {P : State → Prop} (step : ∀ {s t}, s.step? me = some t → P s → P t)
    (elapse : ∀ {s} millis, P s → P (s.elapse millis)) (h : P s) (rounds : Nat) :
    P (s.completeWithin me rounds) := by
  have advance (fuel : Nat) : ∀ {s}, P s → P (s.advance me fuel) := by
    induction fuel with
    | zero => exact id
    | succ fuel ih =>
      intro s h
      rw [State.advance]
      cases hs : s.step? me with
      | none => exact h
      | some t => exact ih (step hs h)
  induction rounds generalizing s with
  | zero => exact h
  | succ rounds ih =>
    rw [completeWithin]
    have polled : P (s.poll me) := advance _ h
    split
    · exact polled
    · exact ih (elapse _ polled)

end State

namespace OnCourse

variable {s t : State} {tr : Transport} {me : ActivityId} {stage : Stage} {es : List Event}

/-- A flush on its course comes to its end: every step leads to a later stage. -/
theorem endsWithin (h : OnCourse s tr me stage es t) (first : tr.next.1.ending ≠ .breakdown)
    (second : tr.next.2.next.1.ending ≠ .breakdown) :
    t.EndsWithin me (OnCourse s tr me .returned es) stage.rank := by
  induction hn : stage.rank using Nat.strongRecOn generalizing stage t with
  | ind n ih =>
    subst hn
    by_cases returned : stage = .returned
    · subst returned
      exact .ended (h.isEnded_iff.mpr rfl) h
    cases hs : t.step? me with
    | some u =>
      obtain ⟨stage', less, h'⟩ := h.step first second hs
      exact .step hs less (ih _ less h' rfl)
    | none =>
      have due := h.deadline returned
      have permits : t.Permits me (.elapse ((s.course tr).due stage - t.now)) := by
        intro limit hl
        obtain rfl := Option.some.inj (due.symm.trans hl)
        exact Nat.le_of_eq (Nat.add_sub_of_le h.due)
      have waited := h.elapse returned permits
      obtain ⟨u, hu⟩ := waited.exists_step first second returned (Nat.add_sub_of_le h.due)
      obtain ⟨stage', less, h'⟩ := waited.step first second hu
      have fueled : stage'.rank < t.fuel := by
        have few : stage'.rank ≤ 3 := by cases stage' <;> decide
        rw [State.fuel]
        omega
      exact .wait hs due hu less fueled (ih _ less h' rfl)

end OnCourse

/-- No more chunks are left than events. -/
theorem Finale.count_sub_le (f : Finale) (k : Nat) : f.count - k ≤ (f.rest k).length := by
  have pos : 0 < f.size := f.settings.batchSize.pos
  have grows : f.queue.length - k * f.size ≤ f.size * (f.queue.length - k * f.size) :=
    Nat.le_mul_of_pos_left _ pos
  refine Nat.sub_le_iff_le_add.mpr ?_
  rw [Finale.rest, List.length_drop, Finale.count, Nat.div_le_iff_le_mul_add_pred pos, Nat.mul_add,
    Nat.mul_comm f.size k]
  omega

namespace OnFinale

variable {s t : State} {tr : Transport} {me : ActivityId} {k : Nat} {stage : Finale.Stage}

/-- The final flush of a shutdown comes to its end: every step leads to a later stage, and the last
one to its return. -/
theorem endsWithin (h : OnFinale s tr me k stage t) (steady : tr.Steady) :
    t.EndsWithin me (AfterFinale s tr me) ((s.finale tr).rank k stage + 1) := by
  induction hn : (s.finale tr).rank k stage using Nat.strongRecOn generalizing k stage t with
  | ind n ih =>
    subst hn
    have goes {t u : State} (h : OnFinale s tr me k stage t) (hs : t.step? me = some u) :
        ∃ m ≤ (s.finale tr).rank k stage, u.EndsWithin me (AfterFinale s tr me) m := by
      rcases h.next steady hs with ⟨k', stage', less, on⟩ | returned
      · exact ⟨_, less, ih _ less on rfl⟩
      · exact ⟨0, Nat.zero_le _, .ended ((keeps s me steady).ended returned) returned⟩
    rcases h.step steady with ⟨waits, rfl, early⟩ | ⟨u, hs, _⟩
    · obtain ⟨_, waited, u, hs⟩ := h.wait steady waits early
      obtain ⟨m, few, rest⟩ := goes waited hs
      have fueled : m < t.fuel := by
        have left := (s.finale tr).count_sub_le (k + 1)
        have queue : t.queue = (s.finale tr).rest (k + 1) := h.queue
        rw [← queue] at left
        rw [Finale.rank, Finale.Stage.rank] at few
        rw [State.fuel]
        omega
      exact .wait waits h.deadline hs (Nat.lt_succ_of_le few) fueled rest
    · obtain ⟨m, few, rest⟩ := goes h hs
      exact .step hs (Nat.lt_succ_of_le few) rest

end OnFinale

/-- The number of events in the batch of a flush. -/
def Outcome.size : Outcome → Nat
  | .empty => 0
  | .delivered events => events
  | .dropped events => events

/-- However its attempts fare, a flush settles its batch. -/
theorem Course.size_outcome (c : Course) : c.outcome.size = c.batch.size := by
  rw [Course.outcome]
  split <;> rfl

/-- A flush that has returned leaves no breakdown to come. -/
theorem Course.steady_left (c : Course) {tr : Transport} (steady : tr.Steady) :
    (c.left tr .returned).Steady := by
  rw [Course.left]
  split
  · exact steady.next.2.next.2
  · exact steady.next.2

namespace State

section offers

/-- How many events can still be taken. -/
def room (s : State) : Nat :=
  if s.enabled && !s.closed then s.settings.maxQueueSize.value - s.queue.length else 0

/-- An offer is taken and counted if there is room, and leaves less room then. Otherwise it changes
nothing of that. -/
theorem offer_of_room (s : State) (e : Event) :
    (∃ room, s.room = room + 1 ∧ (s.offer e).2 = true ∧ (s.offer e).1.room = room ∧
      (s.offer e).1.queue = s.queue ++ [e] ∧
        (s.offer e).1.stats.accepted = s.stats.accepted + 1) ∨
    (s.room = 0 ∧ (s.offer e).2 = false ∧ (s.offer e).1.room = 0 ∧ (s.offer e).1.queue = s.queue ∧
      (s.offer e).1.stats.accepted = s.stats.accepted) := by
  unfold offer
  split
  · next shut =>
    have none : (s.enabled && !s.closed) = false := by
      revert shut
      cases s.enabled <;> cases s.closed <;> decide
    have full : s.room = 0 := by rw [room, none]; rfl
    exact .inr ⟨full, rfl, full, rfl, rfl⟩
  · next opened =>
    have some : (s.enabled && !s.closed) = true := by
      revert opened
      cases s.enabled <;> cases s.closed <;> decide
    have left : s.room = s.settings.maxQueueSize.value - s.queue.length := by
      rw [room, some, if_pos rfl]
    split
    · next more =>
      have after {u : State} (settings : u.settings = s.settings) (enabled : u.enabled = s.enabled)
          (closed : u.closed = s.closed) (queue : u.queue = s.queue ++ [e]) :
          u.room = s.room - 1 := by
        rw [left, room, enabled, closed, some, if_pos rfl, settings, queue, List.length_append,
          List.length_singleton, Nat.sub_sub]
      refine .inl ⟨s.room - 1, by omega, rfl, ?_⟩
      dsimp only
      split <;> exact ⟨after rfl rfl rfl rfl, rfl, rfl⟩
    · next full =>
      have none : s.room = 0 := left.trans (Nat.sub_eq_zero_of_le (Nat.le_of_not_lt full))
      exact .inr ⟨none, rfl, none, rfl, rfl⟩

/-- Offers are taken in order as long as there is room. -/
theorem offerAll_eq (s : State) (events : List Event) :
    (s.offerAll events).2 = List.replicate (min s.room events.length) true ++
      List.replicate (events.length - s.room) false ∧
    (s.offerAll events).1.queue = s.queue ++ events.take s.room ∧
    (s.offerAll events).1.stats.accepted = s.stats.accepted + min s.room events.length := by
  induction events generalizing s with
  | nil => simp [offerAll]
  | cons e rest ih =>
    obtain ⟨verdicts, queue, accepted⟩ := ih (s.offer e).1
    rw [offerAll]
    rcases s.offer_of_room e with ⟨room, more, yes, left, queued, counted⟩ |
      ⟨full, no, left, queued, counted⟩
    · rw [left] at verdicts queue accepted
      simp only [verdicts, queue, accepted, more, yes, queued, counted, List.length_cons,
        List.take_succ_cons, Nat.succ_min_succ, List.replicate_succ, Nat.succ_sub_succ]
      exact ⟨rfl, List.append_cons .. |>.symm, by omega⟩
    · rw [left] at verdicts queue accepted
      simp [verdicts, queue, accepted, full, no, queued, counted, List.replicate_succ]

/-- Offers one after the other are a run. -/
theorem offerAll_run (s : State) (events : List Event) :
    (s.offerAll events).1 = s.run (events.map .offer) := by
  induction events generalizing s with
  | nil => rfl
  | cons e rest ih => exact ih _

end offers

end State

/-- Between two calls of a session, before its shutdown, all activities have ended and no loop was
started. -/
structure State.Rests (s : State) (tr : Transport) : Prop where
  /-- The state is reachable. -/
  reached : s.Reached
  /-- All activities have ended. -/
  ended : ∀ {i a}, s.activity? i = some a → ∃ c, a = .ended c
  /-- The loop was not started, and no shutdown has begun. -/
  phase : s.phase = .stopped
  /-- There is no loop. -/
  worker : s.worker = none
  /-- There is a way to the collector. -/
  supplied : s.transport = some tr
  /-- No answer to come is a breakdown. -/
  steady : tr.Steady

/-- While an activity works by itself all others have ended. -/
structure State.Works (me : ActivityId) (s : State) : Prop where
  /-- The state is reachable. -/
  reached : s.Reached
  /-- The others have ended. -/
  others : ∀ {i a}, i ≠ me → s.activity? i = some a → ∃ c, a = .ended c

/-- A flush, at work or ended, of a publisher whose loop was not started. -/
structure State.Flushes (me : ActivityId) (s : State) : Prop where
  /-- The loop was not started, and no shutdown has begun. -/
  phase : s.phase = .stopped
  /-- There is no loop. -/
  worker : s.worker = none
  /-- The flush is at work or has ended. -/
  part : ∃ p, s.lifecycle.parts[me]? = some p ∧ (p = .flush ∨ ∃ c, p = .ended c)

namespace State

variable {s t : State} {tr : Transport} {me : ActivityId}

/-- A step of an activity that works by itself keeps the others as they are. -/
theorem Works.step (hs : s.step? me = some t) (h : s.Works me) : t.Works me where
  reached := h.reached.acts (.step hs)
  others := by
    intro i a hi ha
    have same : t.lifecycle.parts[i]? = s.lifecycle.parts[i]? := by
      rcases (reflGen_iff _ _ _).mp (move_of_step hs) with he | move
      · rw [he]
      · exact move.others hi
    have part := same.symm.trans (part_of_activity ha)
    obtain ⟨b, hb, hp⟩ := Option.map_eq_some_iff.mp ((s.getElem?_parts i).symm.trans part)
    obtain ⟨c, rfl⟩ := h.others hi hb
    exact ⟨c, Activity.eq_ended_of_part hp.symm⟩

/-- The passing of time ends nothing and begins nothing. -/
theorem Works.elapse (millis : Nat) (h : s.Works me) : (s.elapse millis).Works me :=
  ⟨h.reached.acts (.elapse s millis), h.others⟩

/-- Run to its end, an activity has worked by itself. -/
theorem Works.complete (h : s.Works me) : (s.complete me).Works me :=
  completeWithin_keeps Works.step Works.elapse h _

/-- Once an activity that works by itself has ended, all activities have. -/
theorem Works.all_ended (h : s.Works me) {c : Closing}
    (mine : s.activity? me = some (.ended c)) {i : ActivityId} {a : Activity}
    (ha : s.activity? i = some a) : ∃ c, a = .ended c := by
  by_cases hi : i = me
  · subst hi
    exact ⟨c, Option.some.inj (ha.symm.trans mine)⟩
  · exact h.others hi ha

/-- A call adds an activity, which works by itself. -/
theorem Rests.works (h : s.Rests tr) {a : Activity} (reached : (s.addActivity a).Reached) :
    (s.addActivity a).Works s.activities.length where
  reached := reached
  others := by
    intro i b hi hb
    rcases getElem?_of_append hb with ⟨rfl, _⟩ | hb
    · exact absurd rfl hi
    · exact h.ended hb

/-- An activity that works by itself finds the turn free. -/
theorem Works.free (h : s.Works me) {a : Activity} (ha : s.activity? me = some a)
    (arriving : a.cycle? = some .arriving) : s.turn.holder = none := by
  rw [h.reached.turn_of_sole ha arriving fun i b hi hb => ?_]
  · rfl
  · obtain ⟨c, rfl⟩ := h.others hi hb
    rfl

/-- A flush changes neither the phase nor the loop. -/
theorem Flushes.step (hs : s.step? me = some t) (h : s.Flushes me) : t.Flushes me := by
  obtain ⟨phase, worker, p, part, flush⟩ := h
  rcases (reflGen_iff _ _ _).mp (move_of_step hs) with he | move
  · exact ⟨(congrArg Lifecycle.phase he).trans phase, (congrArg Lifecycle.worker he).trans worker,
      p, by rw [he]; exact part, flush⟩
  · have mine {q : Part} (entry : s.lifecycle.parts[me]? = some q) :
        q = .flush ∨ ∃ c, q = .ended c := by
      obtain rfl := Option.some.inj (part.symm.trans entry)
      exact flush
    generalize ht : t.lifecycle = l at move
    cases move with
    | @leave q c entry ends =>
      exact ⟨(congrArg Lifecycle.phase ht).trans phase, (congrArg Lifecycle.worker ht).trans worker,
        .ended c, by rw [ht]; exact getElem?_set_of_some entry _, .inr ⟨c, rfl⟩⟩
    | stop entry => rcases mine entry with flush | ⟨c, ended⟩ <;> contradiction
    | joined entry => rcases mine entry with flush | ⟨c, ended⟩ <;> contradiction
    | finish entry => rcases mine entry with flush | ⟨c, ended⟩ <;> contradiction

/-- A flush alone that has ended leaves the publisher at rest. -/
theorem Works.rests (h : s.Works me) (flushes : s.Flushes me) {c : Closing}
    (mine : s.activity? me = some (.ended c)) (supplied : s.transport = some tr)
    (steady : tr.Steady) : s.Rests tr where
  reached := h.reached
  ended := h.all_ended mine
  phase := flushes.phase
  worker := flushes.worker
  supplied := supplied
  steady := steady

/-- A flush that finds nothing queued returns with its first run. -/
theorem complete_of_empty (called : s.activity? me = some (.flush .arriving))
    (free : s.turn.holder = none) (empty : s.queue = []) :
    s.complete me = (s.admitted me).release.close me (.flushed .empty) ∧
      (s.complete me).activity? me = some (.ended (.flushed .empty)) := by
  have entered : (s.admitted me).activity? me = some (.flush .admitted) :=
    (s.step_arriving called free).2
  have ended : ((s.admitted me).release.close me (.flushed .empty)).activity? me =
      some (.ended (.flushed .empty)) := getElem?_set_of_some entered _
  have returned : s.complete me = (s.admitted me).release.close me (.flushed .empty) := by
    rw [complete, completeWithin, poll_of_empty called free empty]
    simp only [deadline, ended]
  exact ⟨returned, returned ▸ ended⟩

/-- A flush that finds something queued comes to the end of its course. -/
theorem complete_of_queued (called : s.activity? me = some (.flush .arriving))
    (free : s.turn.holder = none) (supplied : s.transport = some tr) (steady : tr.Steady)
    (queued : s.queue ≠ []) : OnCourse s tr me .returned [] (s.complete me) := by
  obtain ⟨t, enters, takes, begun⟩ := OnCourse.begin called free supplied queued
  obtain ⟨first, later⟩ := steady.next
  have ends : (s.admitted me).EndsWithin me (OnCourse s tr me .returned []) 4 :=
    .step takes (Nat.lt_succ_self 3) (begun.endsWithin first later.next.1)
  have fueled : 4 < s.fuel := Nat.lt_of_lt_of_le (by decide) (Nat.le_add_left 64 _)
  exact ends.complete enters fueled (Nat.lt_of_lt_of_le (by decide) (Nat.le_add_left 8 _))

/-- A flush of a session settles the next batch of the queue, as far as there is one, and comes to
its end however its attempts fare. -/
theorem Rests.flush (h : s.Rests tr) :
    let u := s.callFlush.complete s.activities.length
    (∃ o, u.outcome? s.activities.length = some o ∧
      o.size = min s.settings.batchSize.value s.queue.length) ∧
    u.queue = s.queue.drop s.settings.batchSize.value ∧ u.settings = s.settings ∧
    ∃ tr', u.Rests tr' := by
  intro u
  let f := s.callFlush
  let me := s.activities.length
  have called : f.activity? me = some (.flush .arriving) := List.getElem?_concat_length
  have works : f.Works me := h.works (h.reached.acts (.callFlush s))
  have free : f.turn.holder = none := works.free called rfl
  have worked : u.Works me := works.complete
  have flushed : u.Flushes me := by
    refine completeWithin_keeps Flushes.step (fun _ h => ⟨h.phase, h.worker, h.part⟩) ?_ _
    exact ⟨h.phase, h.worker, .flush, part_of_activity called, .inl rfl⟩
  have outcome {o : Outcome} (mine : u.activity? me = some (.ended (.flushed o))) :
      u.outcome? me = some o := by rw [outcome?, mine]
  by_cases empty : s.queue = []
  · obtain ⟨returned, mine⟩ := complete_of_empty called free empty
    have same : u.queue = [] ∧ u.settings = s.settings ∧ u.transport = some tr := by
      change (f.complete me).queue = [] ∧ (f.complete me).settings = s.settings ∧
        (f.complete me).transport = some tr
      rw [returned]
      exact ⟨empty, rfl, h.supplied⟩
    obtain ⟨queue, settings, supplied⟩ := same
    refine ⟨⟨.empty, outcome mine, ?_⟩, ?_, settings, tr,
      worked.rests flushed mine supplied h.steady⟩
    · rw [empty]
      exact (Nat.min_zero _).symm
    · rw [queue, empty, List.drop_nil]
  · have course := complete_of_queued called free h.supplied h.steady empty
    refine ⟨⟨_, outcome course.activity, ?_⟩, ?_, course.settings, _,
      worked.rests flushed course.activity course.transport ((f.course tr).steady_left h.steady)⟩
    · rw [(f.course tr).size_outcome]
      exact List.length_take
    · exact course.queue.trans (List.append_nil _)

/-- Flushes one after the other settle one batch each, the last one perhaps with fewer events, and
find nothing queued after that. -/
theorem Rests.flushAll (h : s.Rests tr) (count : Nat) :
    (s.flushAll count).2.map Outcome.size = (List.range count).map (fun k =>
      min s.settings.batchSize.value (s.queue.length - k * s.settings.batchSize.value)) ∧
    (s.flushAll count).1.queue = s.queue.drop (count * s.settings.batchSize.value) ∧
    ∃ tr', (s.flushAll count).1.Rests tr' := by
  induction count generalizing s tr with
  | zero =>
    rw [Nat.zero_mul]
    exact ⟨rfl, rfl, tr, h⟩
  | succ count ih =>
    obtain ⟨⟨o, outcome, size⟩, queue, settings, tr', rests⟩ := h.flush
    obtain ⟨sizes, left, rests⟩ := ih rests
    have later (k : Nat) : s.queue.length - s.settings.batchSize.value -
        k * s.settings.batchSize.value = s.queue.length - (k + 1) * s.settings.batchSize.value := by
      rw [Nat.sub_sub, Nat.succ_mul, Nat.add_comm]
    rw [settings, queue] at left sizes
    simp only [List.length_drop, later] at sizes
    refine ⟨?_, ?_, rests⟩
    · rw [State.flushAll, outcome, List.range_succ_eq_map, List.map_cons, List.map_map,
        Nat.zero_mul]
      exact congrArg₂ List.cons size sizes
    · rw [State.flushAll, left, List.drop_drop, Nat.succ_mul, Nat.add_comm]

/-- The shutdown of a publisher at rest begins its final flush with its first step. -/
theorem Rests.enters_finale (h : s.Rests tr) :
    ∃ b, s.callShutdown.step? s.activities.length = some b ∧ b.queue = s.queue ∧
      OnFinale b tr s.activities.length 0 .arriving b := by
  let c := s.callShutdown
  let me := s.activities.length
  have called : c.activity? me = some (.shutdown .called) := List.getElem?_concat_length
  have stopped : c.phase = .stopped := h.phase
  have allowed : c.phase ≠ .stopping := by
    rw [stopped]
    decide
  have works : c.Works me := h.works (h.reached.acts (.callShutdown s))
  obtain ⟨u, d, moved, hs, stages⟩ := begins_of_called called allowed
  obtain ⟨mine, others⟩ := activity_of_begun called moved d
  obtain ⟨p, next, rfl⟩ := Option.map_eq_some_iff.mp moved
  -- There is no loop to wait for, so the final flush comes at once.
  obtain rfl : d = .flushing .arriving 0 0 := by
    rcases stages with ⟨_, hd⟩ | ⟨loop, worker, _⟩
    · exact hd
    · cases worker.symm.trans h.worker
  obtain rfl : p = .stopping := by
    rw [stopped] at next
    exact (Option.some.inj next).symm
  let moved := { c.report (.moved c.phase .stopping .stop) with phase := .stopping }
  let b := moved.closing.setShutdown me (.flushing .arriving 0 0)
  have winding : b.Winding me := by
    refine ⟨works.reached.acts (.step hs), rfl, rfl, rfl, fun {i a} ha => ?_⟩
    by_cases hi : i = me
    · exact .inl hi
    · obtain ⟨c, rfl⟩ := works.others hi ((others i hi).symm.trans ha)
      exact .inr (.inl (.ended c))
  exact ⟨b, hs, rfl, .start winding mine h.supplied⟩

/-- A shutdown of a session comes to its end, and nobody is left at work. -/
theorem Rests.shutDown (h : s.Rests tr) :
    (∃ b, AfterFinale b tr s.activities.length s.shutDown) ∧
      ∀ {i a}, s.shutDown.activity? i = some a → ∃ c, a = .ended c := by
  let c := s.callShutdown
  let me := s.activities.length
  have works : c.Works me := h.works (h.reached.acts (.callShutdown s))
  have worked : s.shutDown.Works me := works.complete
  obtain ⟨b, hs, queue, begun⟩ := h.enters_finale
  have few : (b.finale tr).count ≤ s.queue.length := by
    have left := (b.finale tr).count_sub_le 0
    rw [Finale.rest, Nat.zero_mul] at left
    rw [← queue]
    exact left
  have final : AfterFinale b tr me s.shutDown := by
    refine (begun.endsWithin h.steady).complete hs ?_ ?_
    · rw [Finale.rank, Finale.Stage.rank, fuel, show c.queue = s.queue from rfl]
      omega
    · rw [Finale.rank, Finale.Stage.rank, show c.queue = s.queue from rfl]
      omega
  exact ⟨⟨b, final⟩, worked.all_ended final.activity⟩

end State

namespace State

variable {s t : State} {tr : Transport}

/-- An offer leaves a publisher at rest. -/
theorem Rests.offer (h : s.Rests tr) (e : Event) : (s.offer e).1.Rests tr where
  reached := h.reached.offer e
  ended := fun {i _} ha => h.ended ((s.activity?_offer e i).symm.trans ha)
  phase := (congrArg Lifecycle.phase (s.lifecycle_offer e)).trans h.phase
  worker := (congrArg Lifecycle.worker (s.lifecycle_offer e)).trans h.worker
  supplied := (s.offer_same e).2.trans h.supplied
  steady := h.steady

theorem Rests.offerAll (h : s.Rests tr) (events : List Event) : (s.offerAll events).1.Rests tr := by
  induction events generalizing s with
  | nil => exact h
  | cons e rest ih => exact ih (h.offer e)

/-- A publisher as it is made is at rest. -/
theorem Rests.of_made (made : Made s) (supplied : s.transport = some tr) (steady : tr.Steady) :
    s.Rests tr where
  reached := made.reached []
  ended := fun {i a} ha => by
    rw [activity?, made.untouched.activities] at ha
    contradiction
  phase := made.untouched.phase
  worker := made.untouched.worker
  supplied := supplied
  steady := steady

/-- One state follows another by actions that are not offers. -/
def Follows (s t : State) : Prop :=
  ∃ actions, (∀ a ∈ actions, ∀ e, a ≠ .offer e) ∧ s.run actions = t

theorem Follows.trans {u : State} (h : s.Follows t) (h' : t.Follows u) : s.Follows u := by
  obtain ⟨earlier, quiet, rfl⟩ := h
  obtain ⟨later, quiet', rfl⟩ := h'
  refine ⟨earlier ++ later, fun a ha => ?_, run_append ..⟩
  rcases List.mem_append.mp ha with ha | ha
  · exact quiet a ha
  · exact quiet' a ha

/-- An action that is not an offer. -/
theorem Follows.single {a : Action} (quiet : ∀ e, a ≠ .offer e) (h : s.apply a = t) :
    s.Follows t :=
  ⟨[a], fun _ hb => List.mem_singleton.mp hb ▸ quiet, h⟩

/-- Running an activity to its end offers nothing. -/
theorem follows_complete (s : State) (me : ActivityId) : s.Follows (s.complete me) := by
  refine completeWithin_keeps (fun hs h => h.trans ?_) (fun millis h => h.trans ?_)
    ⟨[], fun _ ha => absurd ha List.not_mem_nil, rfl⟩ _
  · exact .single (a := .step me) (fun _ => Action.noConfusion) (apply_step hs)
  · exact .single (a := .elapse millis) (fun _ => Action.noConfusion) rfl

theorem follows_flushAll (s : State) (count : Nat) : s.Follows (s.flushAll count).1 := by
  induction count generalizing s with
  | zero => exact ⟨[], fun _ ha => absurd ha List.not_mem_nil, rfl⟩
  | succ count ih =>
    have called : s.Follows s.callFlush := .single (a := .flush) (fun _ => Action.noConfusion) rfl
    exact (called.trans (follows_complete _ _)).trans (ih _)

theorem follows_shutDown (s : State) : s.Follows s.shutDown :=
  .trans (.single (a := .shutdown) (fun _ => Action.noConfusion) rfl) (follows_complete _ _)

/-- Without offers nothing is taken. -/
theorem taken_of_quiet {actions : List Action} (quiet : ∀ a ∈ actions, ∀ e, a ≠ .offer e) :
    s.taken actions = [] := by
  induction actions generalizing s with
  | nil => rfl
  | cons a rest ih =>
    rw [taken, answer_of_ne_offer _ (quiet a List.mem_cons_self), List.nil_append]
    exact ih fun _ hb => quiet _ (List.mem_cons_of_mem _ hb)

end State

/-- A session is a run of its offers and of actions that offer nothing. -/
theorem session_run (s : State) (events : List Event) (flushes : Nat) :
    ∃ later, (∀ a ∈ later, ∀ e, a ≠ .offer e) ∧
      (s.session events flushes).final = s.run (events.map .offer ++ later) := by
  obtain ⟨later, quiet, run⟩ :=
    (State.follows_flushAll (s.offerAll events).1 flushes).trans (State.follows_shutDown _)
  refine ⟨later, quiet, ?_⟩
  rw [State.run_append, ← State.offerAll_run, run]
  rfl

/-- A session of a publisher whose transport does not break down comes to its end, however its
attempts fare. Of the events that are offered the first ones are taken, as many as there is room
for; each flush settles the next batch of them, and the shutdown leaves the publisher stopped and
nothing queued. Every event that was taken is delivered or dropped. -/
theorem session_settles_what_it_takes {s : State} (made : Made s) {tr : Transport}
    (supplied : s.transport = some tr) (steady : tr.Steady) (events : List Event)
    (flushes : Nat) :
    let r := s.session events flushes
    let size := s.settings.batchSize.value
    let taken := min s.room events.length
    r.verdicts = List.replicate taken true ++ List.replicate (events.length - s.room) false ∧
    r.outcomes.map Outcome.size = (List.range flushes).map (fun k => min size (taken - k * size)) ∧
    r.final.phase = .stopped ∧ r.final.queue = [] ∧ r.final.stats.accepted = taken ∧
    r.final.stats.eventsDelivered + r.final.stats.eventsDropped = taken := by
  intro r size taken
  have offered := (State.Rests.of_made made supplied steady).offerAll events
  obtain ⟨verdicts, queue, accepted⟩ := s.offerAll_eq events
  rw [made.untouched.queue, List.nil_append] at queue
  rw [made.untouched.stats, Nat.zero_add] at accepted
  have settings : (s.offerAll events).1.settings = s.settings := by
    rw [State.offerAll_run, State.settings_run]
  obtain ⟨sizes, _, tr', flushed⟩ := offered.flushAll flushes
  obtain ⟨⟨b, final⟩, ended⟩ := flushed.shutDown
  rw [settings, queue, List.length_take] at sizes
  obtain ⟨later, quiet, run⟩ := session_run s events flushes
  have grown := made.accepted_grows (events.map .offer) later
  rw [State.taken_of_quiet quiet, ← State.run_append, ← run, ← State.offerAll_run, accepted]
    at grown
  have books := made.accepted_eq (events.map .offer ++ later)
  rw [← run] at books
  have idle : r.final.inFlight = [] := by
    refine State.inFlight_of_none fun i batch carries => ?_
    obtain ⟨a, c, ha, hc, _⟩ := carries
    obtain ⟨closing, rfl⟩ := ended ha
    contradiction
  have empty : r.final.queueLength = 0 := congrArg List.length final.queue
  have total : r.final.stats.accepted = taken := grown.trans (congrArg (taken + ·) List.length_nil)
  rw [idle, empty, total] at books
  exact ⟨verdicts, sizes, final.stopped, final.queue, total, books.symm⟩

end EventRelay.Publisher
