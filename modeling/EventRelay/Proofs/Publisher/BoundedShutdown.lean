import EventRelay.Proofs.Publisher.AfterShutdown
import EventRelay.Proofs.Publisher.FinalFlush

/-!
# How long a shutdown takes

A shutdown waits for the loop no longer than its limit, and then makes at most as many attempts as
the queue that it found has chunks, none longer than the limit of an attempt. The batch that the
loop had in flight is counted once, at the latest when the loop is cut off; and the loop takes no
further batch, but for one that its flush cycle was about to take when the shutdown began.
-/

namespace EventRelay.Publisher

/-- The batch that is taken off the queue, and who takes it. -/
def Observation.taking? : Observation → Option (ActivityId × List Event)
  | .drained i events => some (i, events)
  | _ => none

/-- The batches that were taken off the queue, in order. -/
def takings (history : List Observation) : List (ActivityId × List Event) :=
  reading Observation.taking? history

/-- What is taken belongs to deliveries. -/
private theorem taking_of_delivery {o : Observation} (h : o.delivery? = none) :
    o.taking? = none := by
  cases o with
  | drained => contradiction
  | _ => rfl

/-- A shipment tells of one batch that is taken, and hands this batch over for the first time
once. -/
private theorem Shipment.taking_told (sh : Shipment) :
    sh.told.filterMap Observation.taking? =
      ((sh.told.filterMap Observation.handing?).filter fun h => !h.second).map fun h =>
        (h.actor, h.batch.events) := by
  obtain ⟨actor, batch, ⟨begun, answer⟩, second, fate⟩ := sh
  cases answer <;> rcases second with _ | ⟨begun', _ | answer'⟩ <;> cases fate <;> rfl

/-- Whoever takes a batch hands it over: the batches that were taken are those that were handed over
for the first time. -/
theorem Made.takings_eq {s₀ : State} (made : Made s₀) (actions : List Action) :
    takings (s₀.run actions).history =
      ((handings (s₀.run actions).history).filter fun h => !h.second).map fun h =>
        (h.actor, h.batch.events) := by
  obtain ⟨past, now, h⟩ : ∃ past now, Accounts (s₀.run actions).books past now :=
    (made.audited actions).accounts
  have told : deliveries (s₀.run actions).history = (past ++ now.toList).flatMap Shipment.told := by
    rw [← deliveries_tale]
    exact h.told
  rw [takings, handings, reading_deliveries fun _ => taking_of_delivery,
    reading_deliveries fun _ => handing_of_delivery, told]
  generalize past ++ now.toList = shipments
  induction shipments with
  | nil => rfl
  | cons sh rest ih =>
    rw [List.flatMap_cons, List.filterMap_append, List.filterMap_append, List.filter_append,
      List.map_append, ih, sh.taking_told]

/-- All attempts of a finale are first ones, made by the shutdown. -/
private theorem Finale.mem_attempts {f : Finale} {me : ActivityId} {n : Nat} {h : Handing}
    (mem : h ∈ f.attempts me n) : h.actor = me ∧ h.second = false := by
  obtain ⟨k, _, rfl⟩ := List.mem_map.mp mem
  exact ⟨rfl, rfl⟩

/-- How many chunks are queued. -/
def State.chunks (s : State) : Nat :=
  (s.queue.length + s.settings.batchSize.value - 1) / s.settings.batchSize.value

/-- When a shutdown that begins now is over at the latest. -/
def State.latest (s : State) : Nat :=
  s.now + s.settings.shutdownTimeout + s.chunks * s.settings.deliveryTimeout

/-- What has been handed over since `s`, while the shutdown `me` was under way: batches of others,
and then its own ones, each once. Others have taken no batch but at the time of `s` itself, in a
flush cycle that had none. -/
def State.Hands (s : State) (me : ActivityId) (t : State) : Prop :=
  ∃ others own, handings t.history = handings s.history ++ (others ++ own) ∧
    (∀ h ∈ own, h.actor = me ∧ h.second = false) ∧
    ∀ h ∈ others, h.actor ≠ me ∧ (h.second = false → h.time = s.now ∧
      ∃ a c, s.activity? h.actor = some a ∧ a.cycle? = some c ∧ c.batch? = none)

/-- What was counted since `s`, when the shutdown `me` has returned: the batch that was in flight,
if there was one, and the chunks of a final flush that began in time. -/
structure State.Settles (s : State) (me : ActivityId) (t : State) (f : Finale)
    (held : List Settlement) : Prop where
  /-- The final flush had the same settings. -/
  settings : f.settings = s.settings
  /-- It began in time. -/
  start : f.start ≤ s.now + s.settings.shutdownTimeout
  /-- No more was queued then. -/
  count : f.count ≤ s.chunks
  /-- The shutdown returned with it. -/
  now : t.now = f.finish
  /-- The attempts of the shutdown were those of its final flush. -/
  attempts : ∃ others, handings t.history =
    handings s.history ++ (others ++ f.attempts me f.count) ∧ ∀ h ∈ others, h.actor ≠ me
  /-- What was counted. -/
  settled : settlements t.history = settlements s.history ++ (held ++ f.settlements f.count)
  /-- The counter of deliveries. -/
  delivered : t.stats.eventsDelivered =
    s.stats.eventsDelivered + (tallied true (held.map Settlement.tally) + f.sent f.count)
  /-- The counter of losses. -/
  dropped : t.stats.eventsDropped =
    s.stats.eventsDropped + (tallied false (held.map Settlement.tally) + f.lost f.count)
  /-- At most one batch was in flight. -/
  few : held.length ≤ 1
  /-- The batch that was in flight was counted once: as dropped if its delivery was cut off, which
  happens at the limit and not before. -/
  counted : ∀ i batch, s.Carries i batch → ∃ x, held = [x] ∧ x.tally.events = batch.size ∧
    (x.cut = true → x.tally.delivered = false ∧ f.start = s.now + s.settings.shutdownTimeout)
  /-- Nothing is in flight any more. -/
  idle : ∀ i batch, ¬ t.Carries i batch

namespace State

variable {s b t base : State} {me : ActivityId} {tr : Transport} {held : List Settlement}

/-- What somebody else carries when a shutdown is called he carries when it has begun. -/
private theorem Begins.carries (begins : s.Begins me b)
    (called : s.activity? me = some (.shutdown .called)) {i : ActivityId} {batch : Envelope}
    (carries : s.Carries i batch) : b.Carries i batch := by
  obtain ⟨a, c, ha, hc, hb⟩ := carries
  have other : i ≠ me := by
    rintro rfl
    obtain rfl := Option.some.inj (called.symm.trans ha)
    contradiction
  exact ⟨a, c, (begins.others other).trans ha, hc, hb⟩

/-- What others have handed over since a shutdown began. -/
private theorem Begins.others_handed (begins : s.Begins me b) (record : Record b me held base)
    (own : List Handing) (handed : handings t.history = handings base.history ++ own) :
    ∃ others, handings t.history = handings s.history ++ (others ++ own) ∧
      ∀ h ∈ others, h.actor ≠ me ∧ (h.second = false → h.time = s.now ∧
        ∃ a c, s.activity? h.actor = some a ∧ a.cycle? = some c ∧ c.batch? = none) := by
  obtain ⟨others, told, lawful⟩ := record.handed
  refine ⟨others, ?_, fun h hm => ?_⟩
  · have same : handings b.history = handings s.history :=
      begins.reading fun _ => handing_of_delivery
    rw [handed, told, same, List.append_assoc]
  · obtain ⟨other, first⟩ := lawful h hm
    refine ⟨other, fun hs => ?_⟩
    obtain ⟨time, a, c, ha, known⟩ := first hs
    exact ⟨time.trans begins.now, a, c, (begins.others other).symm.trans ha, known⟩

/-- What has been handed over since a shutdown began, if its own attempts are known. -/
private theorem Begins.hands (begins : s.Begins me b) (record : Record b me held base)
    (own : List Handing) (handed : handings t.history = handings base.history ++ own)
    (mine : ∀ h ∈ own, h.actor = me ∧ h.second = false) : s.Hands me t := by
  obtain ⟨others, told, lawful⟩ := begins.others_handed record own handed
  exact ⟨others, own, told, mine, lawful⟩

/-- The final flush begins in time and has no more chunks than were queued. -/
private theorem Begins.in_time (begins : s.Begins me b) (tr : Transport)
    (arrived : Arrived b me held base) :
    (base.finale tr).start ≤ s.now + s.settings.shutdownTimeout ∧
      (base.finale tr).count ≤ s.chunks ∧
      ∀ n ≤ (base.finale tr).count, (base.finale tr).begun n ≤ s.latest := by
  have start : (base.finale tr).start ≤ s.now + s.settings.shutdownTimeout := by
    have early := arrived.early
    rw [patience, begins.now, begins.settings] at early
    exact early
  have settings : (base.finale tr).settings = s.settings :=
    arrived.record.settings.trans begins.settings
  have count : (base.finale tr).count ≤ s.chunks := by
    have less : base.queue.length ≤ s.queue.length := begins.queue ▸ arrived.record.queue
    rw [Finale.count, chunks, Finale.size, settings]
    exact Nat.div_le_div_right (Nat.sub_le_sub_right (Nat.add_le_add_right less _) 1)
  refine ⟨start, count, fun n hn => Nat.le_trans ((base.finale tr).begun_le n) ?_⟩
  rw [settings, latest]
  exact Nat.add_le_add start (Nat.mul_le_mul_right _ (Nat.le_trans hn count))

/-- While a shutdown is under way it is not late, and it has handed over what it may. -/
theorem Begins.bounded (begins : s.Begins me b) (h : ShuttingDown b me t) :
    t.now ≤ s.latest ∧ s.Hands me t := by
  cases h with
  | waits awaits =>
    refine ⟨?_, begins.hands awaits.record [] (List.append_nil _).symm fun _ hx => by contradiction⟩
    have early := awaits.early
    rw [patience, begins.now, begins.settings] at early
    exact Nat.le_trans early (Nat.le_add_right _ _)
  | flushes arrived supplied finale =>
    obtain ⟨_, _, bound⟩ := begins.in_time _ arrived
    exact ⟨Nat.le_trans finale.due (bound _ finale.possible),
      begins.hands arrived.record _ finale.handed fun _ => Finale.mem_attempts⟩

end State

/-- A shutdown that has returned is not late, and has handed over and counted what it may. -/
theorem Made.settles {s₀ s : State} (made : Made s₀) {actions : List Action}
    (run : s₀.run actions = s) {me : ActivityId} {tr : Transport} (calls : s.Calls me tr)
    (begins : s.Begins me (s.apply (.step me))) {during : List Action}
    (returned : ShutDown (s.apply (.step me)) me ((s.apply (.step me)).run during))
    (final : ((s.apply (.step me)).run during).Final) :
    ((s.apply (.step me)).run during).now ≤ s.latest ∧
      s.Hands me ((s.apply (.step me)).run during) ∧
      ∃ f held, s.Settles me ((s.apply (.step me)).run during) f held := by
  obtain @⟨base, tr', held, arrived, supplied, after⟩ := returned
  obtain ⟨start, count, bound⟩ := begins.in_time tr' arrived
  have settled : settlements ((s.apply (.step me)).run during).history = settlements s.history ++
      (held ++ (base.finale tr').settlements (base.finale tr').count) := by
    have same : settlements (s.apply (.step me)).history = settlements s.history :=
      begins.reading fun _ => settlement_of_delivery
    rw [after.settled, arrived.record.settled, same, List.append_assoc]
  obtain ⟨sent, lost⟩ := made.counters_grow run (.step me :: during) settled
  rw [List.map_append, Finale.map_settlements, tallied_append] at sent lost
  obtain ⟨others, told, apart⟩ := begins.others_handed arrived.record _ after.handed
  refine ⟨after.now ▸ bound _ (Nat.le_refl _),
    begins.hands arrived.record _ after.handed fun _ => Finale.mem_attempts,
    base.finale tr', held, arrived.record.settings.trans begins.settings, start, count, after.now,
    ⟨others, told, fun h hm => (apart h hm).1⟩, settled, sent, lost, arrived.landed.few,
    fun i batch carries => ?_, fun i batch carries => ?_⟩
  · obtain ⟨x, only, size, cut⟩ :=
      arrived.landed.counted i batch (begins.carries calls.called carries)
    refine ⟨x, only, size, fun hx => ?_⟩
    obtain ⟨lost, limit⟩ := cut hx
    rw [State.patience, begins.now, begins.settings] at limit
    exact ⟨lost, limit⟩
  · obtain ⟨a, c, ha, hc, hb⟩ := carries
    rw [final.without_batch ha hc] at hb
    contradiction

/-- A shutdown is called, no flush is in progress or called later, and no attempt breaks down. If no
shutdown has begun that is not over, this one ends at the latest after its limit for the loop and
the limit of an attempt for each chunk that was queued, and it can always be run to its end. Until
then nobody else takes a batch, except at the time of the call itself, in a flush cycle that had
begun before and had none; whatever is taken is handed over. When it returns nothing is queued or in
flight, and what was counted are the batch that was in flight when it was called, once, and the
chunks of its final flush. If another shutdown is in progress, this one returns at once and changes
nothing. -/
theorem shutdown_returns_within_its_limits {s₀ s : State} (made : Made s₀)
    {actions : List Action} (run : s₀.run actions = s) {me : ActivityId} {tr : Transport}
    (calls : s.Calls me tr) :
    let begun := s.apply (.step me)
    (s.phase ≠ .stopping → ∀ during, begun.Punctual me during →
      let u := begun.run during
      u.now ≤ s.now + s.settings.shutdownTimeout + s.chunks * s.settings.deliveryTimeout ∧
      u.CanEnd me ∧
      s.Hands me u ∧
      takings u.history = ((handings u.history).filter fun h => !h.second).map (fun h =>
        (h.actor, h.batch.events)) ∧
      (u.isEnded me = true →
        u.activity? me = some (.ended .stopped) ∧ u.phase = .stopped ∧ u.queue = [] ∧
        ∃ f held, s.Settles me u f held)) ∧
    (∀ i d, s.activity? i = some (.shutdown d) → d ≠ .called →
      begun.activity? me = some (.ended .stopped) ∧ begun.now = s.now ∧
      begun.queue = s.queue ∧ begun.stats = s.stats ∧
      deliveries begun.history = deliveries s.history ∧
      ∀ j, j ≠ me → begun.activity? j = s.activity? j) := by
  intro begun
  constructor
  · intro allowed during punctual u
    obtain ⟨begins, shutting⟩ := made.begins_shutting_down run calls allowed
    have takes : takings u.history = ((handings u.history).filter fun h => !h.second).map fun h =>
        (h.actor, h.batch.events) := by
      have whole : s₀.run (actions ++ .step me :: during) = u := by
        rw [State.run_append, run]
        rfl
      rw [← whole]
      exact made.takings_eq _
    rcases (ShuttingDown.keeps begun me).run shutting punctual with under | returned
    · obtain ⟨timely, hands⟩ := begins.bounded under
      obtain ⟨unended, can⟩ := under.can_end
      refine ⟨timely, can, hands, takes, fun ended => ?_⟩
      cases unended.symm.trans ended
    · have ended := (ShuttingDown.keeps begun me).ended returned
      have final : u.Final := by
        obtain ⟨d, shows, moved⟩ := shutting.begun
        obtain ⟨_, _, after⟩ := returned
        exact ((ShuttingDown.keeps begun me).winding shutting).reached.final_of_returned shows moved
          after.activity
      obtain ⟨timely, hands, settles⟩ := made.settles run calls begins returned final
      obtain ⟨_, _, after⟩ := returned
      exact ⟨timely, .of_ended ended, hands, takes, fun _ =>
        ⟨after.activity, after.stopped, after.queue, settles⟩⟩
  · intro i d shutting other
    have returns : begun = (s.report (.stopRepeated s.phase)).close me .stopped :=
      made.returns_at_once run calls.called shutting other
    rw [returns]
    exact ⟨getElem?_set_of_some calls.called _, rfl, rfl, rfl, reading_skip rfl,
      fun j hj => List.getElem?_set_ne (Ne.symm hj)⟩

/-- The first two numbered events as they are sent. -/
def firstBatch : Envelope := ⟨(small []).settings.source, ⟨0⟩, [numbered 0, numbered 1]⟩

/-- A full batch is offered beside a parked loop, which takes it. -/
def takeBatch : List Action := [.start true, .poll 0] ++ offers 2 ++ [.poll 0]

/-- Two activities: a loop with the first batch under way, and a shutdown that is called. -/
private theorem calls_of_activities {s : State} {tr : Transport} {tick begun : Nat} {r : Response}
    {rest : List Activity} (activities : s.activities =
      .loop (.flushing tick (.attempting firstBatch false begun r)) false :: rest)
    (others : ∀ a ∈ rest, a.cycle? = none) (answer : r.ending ≠ .breakdown)
    {me : ActivityId} (called : s.activity? me = some (.shutdown .called))
    (supplied : s.transport = some tr) (steady : tr.Steady) :
    s.Calls me tr ∧ s.Carries 0 firstBatch := by
  have here : s.activity? 0 =
      some (.loop (.flushing tick (.attempting firstBatch false begun r)) false) := by
    rw [State.activity?, activities]
    rfl
  have idle {i : ActivityId} {a : Activity} (ha : s.activity? (i + 1) = some a) :
      a.cycle? = none := by
    rw [State.activity?, activities] at ha
    exact others a (List.mem_of_getElem? ha)
  refine ⟨⟨called, supplied, steady, fun {i a _ _ _ _} ha hc => ?_, fun {i c} ha => ?_⟩,
    _, _, here, rfl, rfl⟩
  · cases i with
    | zero =>
      obtain rfl := Option.some.inj (here.symm.trans ha)
      cases hc
      exact answer
    | succ i => cases (idle ha).symm.trans hc
  · cases i with
    | zero => cases here.symm.trans ha
    | succ i => cases idle ha

/-- Both attempts of the loop hang. It is cut off at the limit of the shutdown, which then delivers
the three events that were queued in two chunks. -/
theorem hanging_loop_is_cut_off_in_time :
    let responses := [⟨0, .silence⟩, ⟨0, .silence⟩, ⟨10, .success⟩]
    let left : Transport := { coming := [⟨0, .silence⟩, ⟨10, .success⟩] }
    let actions := takeBatch ++ [.offer (numbered 2), .offer (numbered 3), .offer (numbered 4),
      .shutdown]
    let s := (small responses).run actions
    let during := [.elapse 3000, .poll 0, .elapse 200, .poll 0, .elapse 1800, .poll 1, .poll 0,
      .poll 1, .elapse 10, .poll 1]
    let u := (s.apply (.step 1)).run during
    Made (small responses) ∧ s.Calls 1 left ∧ s.phase ≠ .stopping ∧ s.Carries 0 firstBatch ∧
    (s.apply (.step 1)).Punctual 1 during ∧ u.isEnded 1 = true ∧ s.latest = 11000 ∧
    u.now = 5010 ∧ u.now ≤ s.latest ∧ u.queue = [] ∧
    settlements u.history = [⟨⟨2, false⟩, true⟩, ⟨⟨2, true⟩, false⟩, ⟨⟨1, true⟩, false⟩] ∧
    ∃ f x, s.Settles 1 u f [x] ∧ x.tally.events = 2 := by
  intro responses left actions s during u
  have activities : s.activities = [.loop (.flushing 2000 (.attempting firstBatch false 0
      ⟨0, .silence⟩)) false, .shutdown .called] := by decide +kernel
  have supplied : s.transport = some left := by decide +kernel
  have steady : left.Steady := ⟨by decide +kernel, Ending.noConfusion⟩
  have called : s.activity? 1 = some (.shutdown .called) := by
    rw [State.activity?, activities]
    rfl
  obtain ⟨calls, carries⟩ := calls_of_activities activities (by decide) Ending.noConfusion called
    supplied steady
  have allowed : s.phase ≠ .stopping := by decide +kernel
  have punctual : (s.apply (.step 1)).Punctual 1 during := by decide +kernel
  have ended : u.isEnded 1 = true := by decide +kernel
  have run : (small responses).run actions = s := rfl
  obtain ⟨timely, _, _, _, returns⟩ := (shutdown_returns_within_its_limits (made_small responses)
    run calls).1 allowed during punctual
  obtain ⟨_, _, queue, f, held, settles⟩ := returns ended
  obtain ⟨x, rfl, size, _⟩ := settles.counted 0 firstBatch carries
  exact ⟨made_small responses, calls, allowed, carries, punctual, ended, by decide +kernel,
    by decide +kernel, timely, queue, by decide +kernel, f, x, settles, size⟩

/-- A shutdown begins to wait for a loop that delivers a batch, and another one is called. -/
def shutdownTwiceInFlight : List Action := takeBatch ++ [.shutdown, .step 1, .shutdown]

/-- The second of two shutdowns returns while the batch of the loop is in flight and not counted. -/
theorem second_shutdown_leaves_batch_in_flight :
    let responses := [⟨5, .success⟩]
    let s := (small responses).run shutdownTwiceInFlight
    let u := s.apply (.step 2)
    Made (small responses) ∧ s.Calls 2 {} ∧ s.Carries 0 firstBatch ∧
    (∃ d, s.activity? 1 = some (.shutdown d) ∧ d ≠ .called) ∧
    u.activity? 2 = some (.ended .stopped) ∧ u.Carries 0 firstBatch ∧
    settlements u.history = [] ∧ u.stats.eventsDelivered = 0 ∧ u.stats.eventsDropped = 0 := by
  intro responses s u
  have activities : s.activities = [.loop (.flushing 2000 (.attempting firstBatch false 0
      ⟨5, .success⟩)) false, .shutdown (.joining 0 5000), .shutdown .called] := by decide +kernel
  have after : u.activities = [.loop (.flushing 2000 (.attempting firstBatch false 0
      ⟨5, .success⟩)) false, .shutdown (.joining 0 5000), .ended .stopped] := by decide +kernel
  have called : s.activity? 2 = some (.shutdown .called) := by
    rw [State.activity?, activities]
    rfl
  have waits : s.activity? 1 = some (.shutdown (.joining 0 5000)) := by
    rw [State.activity?, activities]
    rfl
  have supplied : s.transport = some {} := by decide +kernel
  obtain ⟨calls, carries⟩ := calls_of_activities activities (by decide) Ending.noConfusion called
    supplied ⟨by decide, by decide⟩
  have returned : u.activity? 2 = some (.ended .stopped) := by
    rw [State.activity?, after]
    rfl
  have flying : u.activity? 0 = some (.loop (.flushing 2000 (.attempting firstBatch false 0
      ⟨5, .success⟩)) false) := by
    rw [State.activity?, after]
    rfl
  exact ⟨made_small responses, calls, carries, ⟨_, waits, Shutdown.noConfusion⟩, returned,
    ⟨_, _, flying, rfl, rfl⟩, by decide +kernel, by decide +kernel, by decide +kernel⟩

end EventRelay.Publisher
