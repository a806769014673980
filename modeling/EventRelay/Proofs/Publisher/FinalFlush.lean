import EventRelay.Proofs.Publisher.ShuttingDown

/-!
# What the final flush of a shutdown sends

A shutdown that finds no flush cycle in progress sends all that is queued: each chunk once, the next
one when the attempt before has ended, and none of them by the loop. The finale of the state in
which it begins says all of this beforehand.
-/

namespace EventRelay.Publisher

namespace Finale

variable {f : Finale} {k : Nat}

/-- Every chunk but the last one is full. -/
theorem length_chunk (more : k + 1 < f.count) : (f.chunk k).length = f.size := by
  have queued : f.rest (k + 1) ≠ [] := fun empty =>
    Nat.not_le_of_lt more (rest_eq_nil_iff.mp empty)
  rw [rest, Ne, List.drop_eq_nil_iff, Nat.succ_mul] at queued
  rw [chunk, rest, List.length_take, List.length_drop]
  omega

/-- The settlements of the chunks are their tallies. -/
theorem map_settlements (n : Nat) : (f.settlements n).map Settlement.tally = f.tallies n := by
  rw [settlements, List.map_map]
  exact List.map_id _

end Finale

/-- The counters grow by what is counted. -/
theorem Made.counters_grow {s₀ s : State} (made : Made s₀) {actions : List Action}
    (run : s₀.run actions = s) (later : List Action) {more : List Settlement}
    (settled : settlements (s.run later).history = settlements s.history ++ more) :
    (s.run later).stats.eventsDelivered =
        s.stats.eventsDelivered + tallied true (more.map Settlement.tally) ∧
      (s.run later).stats.eventsDropped =
        s.stats.eventsDropped + tallied false (more.map Settlement.tally) := by
  subst run
  have before := made.counted actions
  have after := made.counted (actions ++ later)
  rw [State.run_append] at after
  have tale : tallies ((s₀.run actions).run later).books.tale =
      tallies (s₀.run actions).books.tale ++ more.map Settlement.tally := by
    rw [tallies_tale, tallies_tale, tallies_eq, tallies_eq, settled, List.map_append]
  rw [after.delivered, after.dropped, before.delivered, before.dropped, tale, tallied_append,
    tallied_append]
  exact ⟨rfl, rfl⟩

namespace State

variable {s b t : State} {me loop : ActivityId} {tr : Transport} {held : List Settlement}
  {cut : Bool}

/-- If nobody is in a flush cycle when a shutdown begins, nothing happens until it has the queue to
itself. -/
private theorem awaits_still (idle : ∀ i a, i ≠ me → b.activity? i = some a → a.cycle? = none)
    (h : Awaits b me loop held cut t) : b.Unmoved t := by
  obtain ⟨a, ha, standing⟩ := h.loop
  cases standing with
  | flying _ flying => exact absurd idle flying.not_idle
  | calm _ landed => exact landed.still idle
  | gone landed => exact landed.still idle

/-- The final flush is the one that would begin in a state from which nothing has happened. -/
private theorem same_finale (tr : Transport) (begins : s.Begins me b) (still : b.Unmoved t) :
    t.finale tr = s.finale tr ∧ handings t.history = handings s.history ∧
      settlements t.history = settlements s.history := by
  refine ⟨?_, (still.reading fun _ => handing_of_delivery).trans
    (begins.reading fun _ => handing_of_delivery), (still.reading fun _ =>
    settlement_of_delivery).trans (begins.reading fun _ => settlement_of_delivery)⟩
  rw [finale, finale, still.settings, still.now, still.queue, begins.settings, begins.now,
    begins.queue]

variable (begins : s.Begins me b) (supplied : s.transport = some tr)
  (idle : ∀ i a, s.activity? i = some a → a.cycle? = none)
include begins supplied idle

private theorem Begins.still {base : State} {tr' : Transport} (arrived : Arrived b me held base)
    (known : base.transport = some tr') : tr = tr' ∧ b.Unmoved base := by
  have still : b.Unmoved base := arrived.landed.still fun i a hi ha =>
    idle i a ((begins.others hi).symm.trans ha)
  refine ⟨Option.some.inj (Eq.trans ?_ known), still⟩
  rw [still.transport, begins.transport, supplied]

/-- A shutdown that finds no flush cycle is not late, and has made the first attempts of its
finale. -/
theorem Begins.under_way (h : ShuttingDown b me t) : t.now ≤ (s.finale tr).finish ∧
    ∃ n ≤ (s.finale tr).count,
      handings t.history = handings s.history ++ (s.finale tr).attempts me n := by
  cases h with
  | waits awaits =>
    have still := awaits_still (fun i a hi ha => idle i a ((begins.others hi).symm.trans ha)) awaits
    obtain ⟨_, handed, _⟩ := same_finale tr begins still
    refine ⟨?_, 0, Nat.zero_le _, handed.trans (List.append_nil _).symm⟩
    rw [still.now, begins.now]
    exact Finale.begun_mono (f := s.finale tr) (Nat.zero_le _)
  | flushes arrived known finale =>
    obtain ⟨rfl, still⟩ := begins.still supplied idle arrived known
    obtain ⟨same, handed, _⟩ := same_finale tr begins still
    rw [← same, ← handed]
    exact ⟨Nat.le_trans finale.due (Finale.begun_mono finale.possible), _, finale.possible,
      finale.handed⟩

/-- A shutdown that finds no flush cycle has gone through its finale when it returns. -/
theorem Begins.returned (h : ShutDown b me t) : AfterFinale s tr me t := by
  obtain ⟨arrived, known, after⟩ := h
  obtain ⟨rfl, still⟩ := begins.still supplied idle arrived known
  obtain ⟨same, handed, settled⟩ := same_finale tr begins still
  obtain ⟨activity, stopped, now, queue, handings, settlements, told⟩ := after
  rw [same] at now handings settlements told
  exact ⟨activity, stopped, now, queue, handed ▸ handings, settled ▸ settlements, told⟩

end State

/-- A shutdown is called while no flush cycle is in progress, and nobody calls a flush. If none has
begun and is not over, it sends the whole queue in chunks, each but the last of them full. It never
makes another attempt than the first ones of its finale, it does so at their times, and it can
always be run to its end, which comes when the last attempt ends. Then each chunk has been handed
over exactly once, nothing is queued, and what is counted as delivered and as dropped, in the
counters and in the last report, are the chunks whose attempts succeeded in time, and the others. If
another shutdown is in progress, this one returns at once and attempts nothing. -/
theorem final_flush_attempts_each_chunk_once {s₀ s : State} (made : Made s₀)
    {actions : List Action} (run : s₀.run actions = s) {me : ActivityId} {tr : Transport}
    (called : s.activity? me = some (.shutdown .called)) (supplied : s.transport = some tr)
    (steady : tr.Steady) (idle : ∀ i a, s.activity? i = some a → a.cycle? = none) :
    let begun := s.apply (.step me)
    let f := s.finale tr
    let b := s.settings.batchSize.value
    (s.phase ≠ .stopping →
      f.count = (s.queue.length + b - 1) / b ∧
      (List.range f.count).flatMap f.chunk = s.queue ∧
      (∀ k, k + 1 < f.count → (f.chunk k).length = b) ∧
      ∀ during, begun.Punctual me during →
        let u := begun.run during
        u.now ≤ f.finish ∧
        u.CanEnd me ∧
        (∃ n ≤ f.count, handings u.history = handings s.history ++ f.attempts me n) ∧
        (u.isEnded me = true →
          u.activity? me = some (.ended .stopped) ∧ u.phase = .stopped ∧ u.queue = [] ∧
          u.now = f.finish ∧
          handings u.history = handings s.history ++ f.attempts me f.count ∧
          u.stats.eventsDelivered = s.stats.eventsDelivered + f.sent f.count ∧
          u.stats.eventsDropped = s.stats.eventsDropped + f.lost f.count ∧
          u.history.head? = some (.notice (.finished (f.sent f.count) (f.lost f.count)
            u.stats.eventsDelivered u.stats.eventsDropped u.stats.queueFull)))) ∧
    (∀ i d, s.activity? i = some (.shutdown d) → d ≠ .called →
      begun.activity? me = some (.ended .stopped) ∧
      handings begun.history = handings s.history ∧ begun.queue = s.queue ∧
      begun.stats = s.stats ∧ begun.now = s.now) := by
  intro begun f b
  constructor
  · intro allowed
    refine ⟨rfl, Finale.flatMap_chunk, fun k => Finale.length_chunk, fun during punctual => ?_⟩
    intro u
    have calls : s.Calls me tr :=
      { called, supplied, steady
        answers := fun ha hc => by cases (idle _ _ ha).symm.trans hc
        unflushed := fun ha => by cases idle _ _ ha }
    obtain ⟨begins, shutting⟩ := made.begins_shutting_down run calls allowed
    -- A punctual run ends with the shutdown, if not before: then its finale is over.
    rcases (ShuttingDown.keeps begun me).run shutting punctual with under | returned
    · obtain ⟨timely, attempts⟩ := begins.under_way supplied idle under
      obtain ⟨unended, can⟩ := under.can_end
      refine ⟨timely, can, attempts, fun ended => ?_⟩
      cases unended.symm.trans ended
    · have after := begins.returned supplied idle returned
      have ended := (ShuttingDown.keeps begun me).ended returned
      obtain ⟨sent, lost⟩ := made.counters_grow run (.step me :: during) after.settled
      rw [Finale.map_settlements] at sent lost
      exact ⟨Nat.le_of_eq after.now, .of_ended ended, ⟨_, Nat.le_refl _, after.handed⟩, fun _ =>
        ⟨after.activity, after.stopped, after.queue, after.now, after.handed, sent, lost,
          after.told⟩⟩
  · intro i d shutting other
    have returns : begun = (s.report (.stopRepeated s.phase)).close me .stopped :=
      made.returns_at_once run called shutting other
    rw [returns]
    exact ⟨getElem?_set_of_some called _, reading_skip rfl, rfl, rfl, rfl⟩

/-- A parked loop is woken by a full batch, and then a shutdown is called. -/
def wakeThenShutdown : List Action := [.start true, .poll 0] ++ offers 3 ++ [.shutdown]

/-- The loop ends without a flush. The first chunk of the final flush hangs and is dropped at the
limit, and the second one is delivered. -/
theorem woken_loop_leaves_queue_to_shutdown :
    let responses := [⟨0, .silence⟩, ⟨10, .success⟩]
    let s := (small responses).run wakeThenShutdown
    let f := s.finale { coming := responses }
    let during := [.poll 0, .poll 1, .elapse 3000, .poll 1, .elapse 10, .poll 1]
    let u := (s.apply (.step 1)).run during
    Made (small responses) ∧ s.activity? 1 = some (.shutdown .called) ∧
    s.transport = some { coming := responses } ∧ Transport.Steady { coming := responses } ∧
    (∀ i a, s.activity? i = some a → a.cycle? = none) ∧ s.phase ≠ .stopping ∧
    (s.apply (.step 1)).Punctual 1 during ∧ u.isEnded 1 = true ∧
    f.count = 2 ∧ u.phase = .stopped ∧ u.queue = [] ∧ u.now = 3010 ∧
    handings u.history = [⟨1, 0, f.parcel 0, false⟩, ⟨1, 3000, f.parcel 1, false⟩] ∧
    u.stats.eventsDelivered = 1 ∧ u.stats.eventsDropped = 2 := by
  intro responses s f during u
  have called : s.activity? 1 = some (.shutdown .called) := by decide +kernel
  have supplied : s.transport = some { coming := responses } := by decide +kernel
  have steady : Transport.Steady { coming := responses } :=
    ⟨by decide +kernel, Ending.noConfusion⟩
  have idle : ∀ i a, s.activity? i = some a → a.cycle? = none := by
    have all : ∀ a ∈ s.activities, a.cycle? = none := by decide +kernel
    exact fun i a ha => all a (List.mem_of_getElem? ha)
  have allowed : s.phase ≠ .stopping := by decide +kernel
  have punctual : (s.apply (.step 1)).Punctual 1 during := by decide +kernel
  have ended : u.isEnded 1 = true := by decide +kernel
  have run : (small responses).run wakeThenShutdown = s := rfl
  obtain ⟨count, _, _, flush⟩ := (final_flush_attempts_each_chunk_once (made_small responses) run
    called supplied steady idle).1 allowed
  obtain ⟨_, _, _, returns⟩ := flush during punctual
  obtain ⟨_, stopped, queue, now, handed, sent, lost, _⟩ := returns ended
  exact ⟨made_small responses, called, supplied, steady, idle, allowed, punctual, ended,
    count.trans (by decide +kernel), stopped, queue, now.trans (by decide +kernel),
    handed.trans (by decide +kernel), by rw [sent]; decide +kernel, by rw [lost]; decide +kernel⟩

/-- An event is offered beside a parked loop, a shutdown begins to wait for the loop, and another
shutdown is called. -/
def shutdownTwice : List Action :=
  [.start true, .poll 0, .offer (numbered 0), .shutdown, .step 1, .shutdown]

/-- The second of two shutdowns returns before the event was attempted, although no flush cycle is
in progress. -/
theorem second_shutdown_attempts_nothing :
    let s := (small []).run shutdownTwice
    let u := s.apply (.step 2)
    Made (small []) ∧ s.activity? 2 = some (.shutdown .called) ∧ s.transport = some {} ∧
    Transport.Steady {} ∧ (∀ i a, s.activity? i = some a → a.cycle? = none) ∧
    (∃ d, s.activity? 1 = some (.shutdown d) ∧ d ≠ .called) ∧
    (s.queue.length + s.settings.batchSize.value - 1) / s.settings.batchSize.value = 1 ∧
    u.activity? 2 = some (.ended .stopped) ∧ handings u.history = [] ∧
    u.queue = [numbered 0] := by
  intro s u
  have all : ∀ a ∈ s.activities, a.cycle? = none := by decide +kernel
  have waits : s.activity? 1 = some (.shutdown (.joining 0 5000)) := by decide +kernel
  exact ⟨made_small [], by decide +kernel, by decide +kernel, ⟨by decide, by decide⟩,
    fun i a ha => all a (List.mem_of_getElem? ha), ⟨_, waits, Shutdown.noConfusion⟩,
    by decide +kernel, by decide +kernel, by decide +kernel, by decide +kernel⟩

end EventRelay.Publisher
