import EventRelay.Proofs.Publisher.Winding

/-!
# The final flush of a shutdown

Once the loop has ended a shutdown is alone with the queue, and all that follows is fixed: the queue
is sent in chunks, one attempt for each, and the next attempt begins when the one before has ended.
A finale says when each attempt is made and what it carries, which of the chunks are delivered, and
when the shutdown returns. A shutdown that goes on as soon as it can passes through its finale
chunk by chunk, whatever else happens.
-/

namespace EventRelay.Publisher

/-- How a batch was counted. -/
structure Settlement where
  /-- The count. -/
  tally : Tally
  /-- Whether its delivery was cut off. -/
  cut : Bool
  deriving DecidableEq, Repr

/-- The settlement that a report announces. -/
def Observation.settlement? : Observation → Option Settlement
  | .notice (.delivered n) => some ⟨⟨n, true⟩, false⟩
  | .notice (.dropped _ n _) => some ⟨⟨n, false⟩, false⟩
  | .notice (.noCollector n _) => some ⟨⟨n, false⟩, false⟩
  | .notice (.abandoned n _) => some ⟨⟨n, false⟩, true⟩
  | _ => none

/-- How the batches were counted, in order. -/
def settlements (history : List Observation) : List Settlement :=
  reading Observation.settlement? history

/-- A settlement is a tally. -/
theorem tallies_eq (history : List Observation) :
    tallies history = (settlements history).map Settlement.tally := by
  have alike (o : Observation) : o.tally? = o.settlement?.map Settlement.tally := by
    cases o with
    | notice n => cases n <;> rfl
    | _ => rfl
  induction history with
  | nil => rfl
  | cons o older ih =>
    rw [tallies, settlements, reading_cons, reading_cons, List.map_append, ← Option.toList_map,
      alike]
    exact congrArg (· ++ _) ih

theorem tallied_append (delivered : Bool) (earlier later : List Tally) :
    tallied delivered (earlier ++ later) = tallied delivered earlier + tallied delivered later := by
  simp only [tallied, List.filter_append, List.map_append, List.sum_append]

/-- What is handed over belongs to deliveries. -/
theorem handing_of_delivery {o : Observation} (h : o.delivery? = none) : o.handing? = none := by
  cases o with
  | handed => contradiction
  | _ => rfl

/-- What is counted belongs to deliveries. -/
theorem settlement_of_delivery {o : Observation} (h : o.delivery? = none) :
    o.settlement? = none := by
  cases o with
  | notice n => cases n <;> first | rfl | contradiction
  | _ => rfl

/-- A batch that is taken off the queue is handed over at once. -/
theorem handings_ship {i j : ActivityId} {time : Nat} {batch : Envelope} {second : Bool}
    {events : List Event} (older : List Observation) :
    handings (.handed i time batch second :: .drained j events :: older) =
      handings older ++ [⟨i, time, batch, second⟩] := by
  have before : handings (.drained j events :: older) = handings older := reading_skip rfl
  rw [← before]
  exact reading_find rfl

/-- An attempt that ends is counted at once. -/
theorem settlements_end {i : ActivityId} {time : Nat} {result : Ending} {n : Notice}
    {x : Settlement} (counts : (Observation.notice n).settlement? = some x)
    (older : List Observation) :
    settlements (.notice n :: .answered i time result :: older) = settlements older ++ [x] := by
  have before : settlements (.answered i time result :: older) = settlements older :=
    reading_skip rfl
  rw [← before]
  exact reading_find counts

/-- The front of a list is what its chunks have in them. -/
theorem take_chunks {α : Type} (xs : List α) (width count : Nat) : xs.take (count * width) =
    (List.range count).flatMap fun k => (xs.drop (k * width)).take width := by
  induction count with
  | zero => simp
  | succ count ih =>
    rw [Nat.succ_mul, List.take_add, ih, List.range_succ, List.flatMap_append]
    simp

/-- What the final flush of a shutdown meets. -/
structure Finale where
  /-- The settings. -/
  settings : Settings
  /-- When it begins. -/
  start : Nat
  /-- What is queued then. -/
  queue : List Event
  /-- The way to the collector. -/
  transport : Transport

/-- The final flush that would begin now. -/
def State.finale (s : State) (tr : Transport) : Finale := ⟨s.settings, s.now, s.queue, tr⟩

namespace Finale

/-- Where a final flush stands between two chunks. -/
inductive Stage
  /-- It has not asked for its turn. -/
  | arriving
  /-- It has the turn. -/
  | admitted
  /-- An attempt is under way. -/
  | attempting
  deriving DecidableEq, Repr

variable (f : Finale)

/-- How many events a chunk holds, unless it is the last one. -/
def size : Nat := f.settings.batchSize.value

/-- The answers that are left after a number of attempts. -/
def left (f : Finale) : Nat → Transport
  | 0 => f.transport
  | k + 1 => (f.left k).next.2

/-- The answer to an attempt. -/
def answer (k : Nat) : Response := (f.left k).next.1

/-- When an attempt begins: at once, or when the one before has ended by its answer or at the
limit. -/
def begun (f : Finale) : Nat → Nat
  | 0 => f.start
  | k + 1 => f.begun k + (f.answer k).duration f.settings.deliveryTimeout

/-- What is queued after a number of attempts. -/
def rest (k : Nat) : List Event := f.queue.drop (k * f.size)

/-- What an attempt carries. -/
def chunk (k : Nat) : List Event := (f.rest k).take f.size

/-- A chunk as it is sent. -/
def parcel (k : Nat) : Envelope := ⟨f.settings.source, ⟨f.begun k⟩, f.chunk k⟩

/-- How many attempts there are. -/
def count : Nat := (f.queue.length + f.size - 1) / f.size

/-- When the last attempt ends. -/
def finish : Nat := f.begun f.count

/-- The first attempts. -/
def attempts (me : ActivityId) (n : Nat) : List Handing :=
  (List.range n).map fun k => ⟨me, f.begun k, f.parcel k, false⟩

/-- How a chunk is counted: as delivered if its attempt succeeds in time. -/
def tally (k : Nat) : Tally :=
  ⟨(f.chunk k).length, (f.answer k).succeeds f.settings.deliveryTimeout⟩

/-- How the first chunks are counted. -/
def tallies (n : Nat) : List Tally := (List.range n).map f.tally

/-- The events of the first chunks that are delivered. -/
def sent (n : Nat) : Nat := tallied true (f.tallies n)

/-- The events of the first chunks that are dropped. -/
def lost (n : Nat) : Nat := tallied false (f.tallies n)

/-- No delivery is cut off. -/
def settlements (n : Nat) : List Settlement := (f.tallies n).map fun t => ⟨t, false⟩

/-- How many chunks have been taken at a stage, if a number of them is counted. -/
def Stage.taken (k : Nat) : Stage → Nat
  | .attempting => k + 1
  | _ => k

/-- How many stages of a chunk may follow. -/
def Stage.rank : Stage → Nat
  | .arriving => 2
  | .admitted => 1
  | .attempting => 0

/-- How many stages may follow. -/
def rank (k : Nat) (stage : Stage) : Nat := 3 * (f.count - k) + stage.rank

/-- The flush cycle at a stage. -/
def cycle (k : Nat) : Stage → Cycle
  | .arriving => .arriving
  | .admitted => .admitted
  | .attempting => .attempting (f.parcel k) false (f.begun k) (f.answer k)

/-- The shutdown at a stage. -/
def activity (k : Nat) (stage : Stage) : Activity :=
  .shutdown (.flushing (f.cycle k stage) (f.sent k) (f.lost k))

variable {f} {k : Nat}

/-- There is something queued exactly as long as attempts are left. -/
theorem rest_eq_nil_iff : f.rest k = [] ↔ f.count ≤ k := by
  have pos : 0 < f.size := f.settings.batchSize.pos
  rw [rest, List.drop_eq_nil_iff, count, Nat.div_le_iff_le_mul_add_pred pos, Nat.mul_comm]
  omega

/-- What is queued after one more chunk. -/
theorem rest_succ : f.rest (k + 1) = (f.rest k).drop f.size := by
  rw [rest, rest, List.drop_drop, Nat.succ_mul]

/-- The chunks make up the queue. -/
theorem flatMap_chunk : (List.range f.count).flatMap f.chunk = f.queue := by
  have all : f.queue.length ≤ f.count * f.size :=
    List.drop_eq_nil_iff.mp (rest_eq_nil_iff.mpr (Nat.le_refl f.count))
  rw [← List.take_of_length_le all]
  exact (take_chunks ..).symm

/-- No attempt begins before the one before it. -/
theorem begun_le_succ : f.begun k ≤ f.begun (k + 1) := Nat.le_add_right _ _

/-- No attempt takes longer than the limit. -/
theorem begun_le (f : Finale) (k : Nat) :
    f.begun k ≤ f.start + k * f.settings.deliveryTimeout := by
  induction k with
  | zero => exact Nat.le_add_right _ _
  | succ k ih =>
    have short : (f.answer k).duration f.settings.deliveryTimeout ≤ f.settings.deliveryTimeout := by
      unfold Response.duration
      split <;> omega
    rw [begun, Nat.succ_mul]
    omega

/-- A later chunk is not attempted earlier. -/
theorem begun_mono {k n : Nat} (h : k ≤ n) : f.begun k ≤ f.begun n := by
  induction h with
  | refl => exact Nat.le_refl _
  | step _ ih => exact Nat.le_trans ih begun_le_succ

/-- No answer to come is a breakdown. -/
theorem steady_left (steady : f.transport.Steady) (k : Nat) : (f.left k).Steady := by
  induction k with
  | zero => exact steady
  | succ k ih => exact ih.next.2

theorem attempts_succ (me : ActivityId) :
    f.attempts me (k + 1) = f.attempts me k ++ [⟨me, f.begun k, f.parcel k, false⟩] := by
  rw [attempts, attempts, List.range_succ, List.map_append]
  rfl

theorem tallies_succ : f.tallies (k + 1) = f.tallies k ++ [f.tally k] := by
  rw [tallies, tallies, List.range_succ, List.map_append]
  rfl

theorem settlements_succ : f.settlements (k + 1) = f.settlements k ++ [⟨f.tally k, false⟩] := by
  rw [settlements, settlements, tallies_succ, List.map_append]
  rfl

/-- A chunk whose attempt succeeds in time is sent. -/
theorem sent_succ (succeeds : (f.answer k).succeeds f.settings.deliveryTimeout = true) :
    f.sent (k + 1) = f.sent k + (f.chunk k).length ∧ f.lost (k + 1) = f.lost k := by
  rw [sent, sent, lost, lost, tallies_succ, tallied_append, tallied_append, tally, succeeds]
  simp [tallied]

/-- A chunk whose attempt does not succeed in time is lost. -/
theorem lost_succ (fails : (f.answer k).succeeds f.settings.deliveryTimeout = false) :
    f.sent (k + 1) = f.sent k ∧ f.lost (k + 1) = f.lost k + (f.chunk k).length := by
  rw [sent, sent, lost, lost, tallies_succ, tallied_append, tallied_append, tally, fails]
  simp [tallied]

end Finale

namespace State

variable {s t u : State} {me : ActivityId} {sent lost : Nat}

/-- In its flush cycle a shutdown that finds the turn free takes it. -/
theorem step_of_arriving (ha : s.activity? me = some (.shutdown (.flushing .arriving sent lost)))
    (free : s.turn.holder = none) :
    s.step? me = some (({ s with turn := s.turn.request me }).setShutdown me
      (.flushing .admitted sent lost)) := by
  rw [step?, ha]
  simp only [Shutdown.step?, Cycle.step, if_pos free]

/-- The state in which a shutdown has returned. -/
def finished (s : State) (me : ActivityId) (sent lost : Nat) : State :=
  let u := (s.release.move? .finish).getD s.release
  (u.report (.finished sent lost u.stats.eventsDelivered u.stats.eventsDropped
    u.stats.queueFull)).close me .stopped

/-- With the turn a shutdown returns if nothing is queued. -/
theorem step_of_empty (ha : s.activity? me = some (.shutdown (.flushing .admitted sent lost)))
    (empty : s.queue = []) : s.step? me = some (s.finished me sent lost) := by
  rw [step?, ha]
  simp only [Shutdown.step?, Cycle.step, if_pos empty]
  rfl

/-- With the turn a shutdown hands the front of the queue over. -/
theorem step_of_queued {tr : Transport}
    (ha : s.activity? me = some (.shutdown (.flushing .admitted sent lost)))
    (supplied : s.transport = some tr) (queued : s.queue ≠ []) :
    s.step? me = some ((s.dispatch me tr.next.2).setShutdown me
      (.flushing (.attempting s.parcel false s.now tr.next.1) sent lost)) := by
  rw [step?, ha]
  simp only [Shutdown.step?, cycle_dispatches me supplied queued false]

/-- The state in which an attempt has ended, and its batch is counted. -/
def settled (s : State) (me : ActivityId) (batch : Envelope) : Ending → State
  | .failure e => ((s.observe (.answered me s.now (.failure e))).settleDropped batch e).release
  | result => ((s.observe (.answered me s.now result)).settleDelivered batch).release

/-- An attempt of a shutdown that does not break down ends once it has a result: its batch is sent
or lost. -/
theorem step_of_attempting {batch : Envelope} {second : Bool} {begun : Nat} {r : Response}
    (ha : s.activity? me =
      some (.shutdown (.flushing (.attempting batch second begun r) sent lost)))
    (steady : r.ending ≠ .breakdown) :
    (r.resultAfter (s.now - begun) s.settings.deliveryTimeout = none ∧ s.step? me = none) ∨
      (r.resultAfter (s.now - begun) s.settings.deliveryTimeout = some .success ∧
        s.step? me = some ((s.settled me batch .success).setShutdown me
          (.flushing .arriving (sent + batch.size) lost))) ∨
      ∃ e, r.resultAfter (s.now - begun) s.settings.deliveryTimeout = some (.failure e) ∧
        s.step? me = some ((s.settled me batch (.failure e)).setShutdown me
          (.flushing .arriving sent (lost + batch.size))) := by
  rw [step?, ha]
  cases answer : r.resultAfter (s.now - begun) s.settings.deliveryTimeout with
  | none =>
    refine .inl ⟨rfl, ?_⟩
    simp only [Shutdown.step?, Cycle.step, answer]
  | some result =>
    rcases Response.result_of_resultAfter answer steady with rfl | ⟨e, rfl⟩
    · refine .inr (.inl ⟨rfl, ?_⟩)
      simp only [Shutdown.step?, Cycle.step, answer]
      rfl
    · refine .inr (.inr ⟨e, rfl, ?_⟩)
      simp only [Shutdown.step?, Cycle.step, answer, Bool.false_and, Bool.false_eq_true, if_false]
      rfl

end State

/-- A shutdown whose final flush began in `s` has counted `k` chunks and is at a stage of the next
one. -/
structure OnFinale (s : State) (tr : Transport) (me : ActivityId) (k : Nat) (stage : Finale.Stage)
    (t : State) : Prop where
  /-- The publisher winds down. -/
  winding : t.Winding me
  /-- No more is taken than there is. -/
  possible : stage.taken k ≤ (s.finale tr).count
  /-- The shutdown is at its stage. -/
  activity : t.activity? me = some ((s.finale tr).activity k stage)
  /-- It has used up the answers to its attempts. -/
  transport : t.transport = some ((s.finale tr).left (stage.taken k))
  /-- The settings are the same. -/
  settings : t.settings = s.settings
  /-- The chunks were taken off the queue. -/
  queue : t.queue = (s.finale tr).rest (stage.taken k)
  /-- Nobody else has handed over a batch. -/
  handed : handings t.history = handings s.history ++ (s.finale tr).attempts me (stage.taken k)
  /-- Nobody else has counted a batch. -/
  settled : settlements t.history = settlements s.history ++ (s.finale tr).settlements k
  /-- The stage was entered at its time. -/
  since : (s.finale tr).begun k ≤ t.now
  /-- It is not overdue. -/
  due : t.now ≤ (s.finale tr).begun (stage.taken k)

/-- A shutdown whose final flush began in `s` has returned. -/
structure AfterFinale (s : State) (tr : Transport) (me : ActivityId) (t : State) : Prop where
  /-- The shutdown has returned. -/
  activity : t.activity? me = some (.ended .stopped)
  /-- The publisher is stopped. -/
  stopped : t.phase = .stopped
  /-- It returned when its last attempt ended. -/
  now : t.now = (s.finale tr).finish
  /-- Nothing is queued. -/
  queue : t.queue = []
  /-- Each chunk was handed over once. -/
  handed : handings t.history =
    handings s.history ++ (s.finale tr).attempts me (s.finale tr).count
  /-- Each chunk was counted once. -/
  settled : settlements t.history =
    settlements s.history ++ (s.finale tr).settlements (s.finale tr).count
  /-- The last report says what was sent and lost. -/
  told : t.history.head? = some (.notice (.finished ((s.finale tr).sent (s.finale tr).count)
    ((s.finale tr).lost (s.finale tr).count) t.stats.eventsDelivered t.stats.eventsDropped
    t.stats.queueFull))

namespace OnFinale

open State

variable {s t u : State} {tr : Transport} {me i : ActivityId} {k : Nat} {stage : Finale.Stage}

/-- A final flush begins with nothing taken. -/
theorem start (winding : t.Winding me)
    (mine : t.activity? me = some (.shutdown (.flushing .arriving 0 0)))
    (supplied : t.transport = some tr) : OnFinale t tr me 0 .arriving t where
  winding := winding
  possible := Nat.zero_le _
  activity := mine
  transport := supplied
  settings := rfl
  queue := by
    change t.queue = (t.finale tr).rest 0
    rw [Finale.rest, Nat.zero_mul]
    rfl
  handed := (List.append_nil _).symm
  settled := (List.append_nil _).symm
  since := Nat.le_refl _
  due := Nat.le_refl _

/-- Nobody else has a part: a shutdown that waits for no loop has outlived it. -/
private theorem alone (h : OnFinale s tr me k stage t) {a : Activity} (hi : i ≠ me)
    (ha : t.activity? i = some a) : a.Aloof := by
  rcases h.winding.others ha with mine | aloof | ⟨l, c, rfl⟩
  · exact absurd mine hi
  · exact aloof
  · have awaited := (h.winding.reached.sound.awaited (part_of_activity h.activity)).2
    cases awaited i (part_of_activity ha)

/-- The shutdown is the only one to ask for the turn. -/
private theorem turn (h : OnFinale s tr me k stage t) : t.turn =
    if (s.finale tr).cycle k stage = .arriving then {} else ⟨some me, []⟩ :=
  h.winding.reached.turn_of_sole h.activity rfl fun _ _ hj ha => (h.alone hj ha).cycle

/-- The finale goes on with another stage. -/
private theorem enter (h : OnFinale s tr me k stage t) (reached : u.Reached) (k' : Nat)
    (stage' : Finale.Stage) (possible : stage'.taken k' ≤ (s.finale tr).count)
    (activities : u.activities = t.activities.set me ((s.finale tr).activity k' stage'))
    (flags : u.closed = t.closed ∧ u.shutdown = t.shutdown ∧ u.phase = t.phase)
    (transport : u.transport = some ((s.finale tr).left (stage'.taken k')))
    (settings : u.settings = t.settings)
    (queue : u.queue = (s.finale tr).rest (stage'.taken k'))
    (handed : handings u.history =
      handings s.history ++ (s.finale tr).attempts me (stage'.taken k'))
    (settled : settlements u.history = settlements s.history ++ (s.finale tr).settlements k')
    (now : u.now = t.now) (since : t.now = (s.finale tr).begun k') :
    OnFinale s tr me k' stage' u := by
  obtain ⟨closed, shutdown, phase⟩ := flags
  exact {
    winding := {
      reached := reached
      closed := closed.trans h.winding.closed
      shutdown := shutdown.trans h.winding.shutdown
      stopping := phase.trans h.winding.stopping
      others := fun {i a} ha => by
        rw [activity?, activities] at ha
        rcases getElem?_of_set ha with ⟨hi, _⟩ | ⟨_, ha⟩
        · exact .inl hi
        · exact h.winding.others ha }
    possible := possible
    activity := by
      rw [activity?, activities]
      exact getElem?_set_of_some h.activity _
    transport := transport
    settings := settings.trans h.settings
    queue := queue
    handed := handed
    settled := settled
    since := Nat.le_of_eq (since.symm.trans now.symm)
    due := by
      rw [now, since]
      cases stage' with
      | attempting => exact Finale.begun_le_succ
      | _ => exact Nat.le_refl _ }

/-- Without a batch no time passes. -/
private theorem now (h : OnFinale s tr me k stage t) (before : stage ≠ .attempting) :
    t.now = (s.finale tr).begun k := by
  refine Nat.le_antisymm (Nat.le_trans h.due ?_) h.since
  cases stage with
  | attempting => exact absurd rfl before
  | _ => exact Nat.le_refl _

/-- It takes its turn. -/
private theorem step_arriving (h : OnFinale s tr me k .arriving t) :
    ∃ u, t.step? me = some u ∧ (u.Reached → OnFinale s tr me k .admitted u) := by
  have free : t.turn.holder = none := by
    rw [h.turn]
    rfl
  refine ⟨_, step_of_arriving h.activity free, fun reached => ?_⟩
  exact h.enter reached k .admitted h.possible rfl ⟨rfl, rfl, rfl⟩ h.transport rfl h.queue h.handed
    h.settled rfl (h.now Finale.Stage.noConfusion)

/-- It takes the next chunk and hands it over. -/
private theorem step_admitted (h : OnFinale s tr me k .admitted t)
    (more : k < (s.finale tr).count) :
    ∃ u, t.step? me = some u ∧ (u.Reached → OnFinale s tr me k .attempting u) := by
  have queue : t.queue = (s.finale tr).rest k := h.queue
  have queued : t.queue ≠ [] := by
    rw [queue]
    exact fun empty => Nat.not_le_of_lt more (Finale.rest_eq_nil_iff.mp empty)
  have now := h.now Finale.Stage.noConfusion
  have size : t.settings.batchSize.value = (s.finale tr).size := by
    rw [h.settings]
    rfl
  have parcel : t.parcel = (s.finale tr).parcel k := by
    rw [State.parcel, Finale.parcel, now, queue, h.settings]
    rfl
  refine ⟨_, step_of_queued h.activity h.transport queued, fun reached => ?_⟩
  refine h.enter reached k .attempting more ?_ ⟨rfl, rfl, rfl⟩ rfl rfl ?_ ?_ ?_ rfl now
  · rw [parcel, now]
    rfl
  · change t.queue.drop t.settings.batchSize.value = _
    rw [queue, size]
    exact Finale.rest_succ.symm
  · refine (handings_ship t.history).trans ?_
    rw [h.handed, parcel, now, List.append_assoc]
    exact congrArg (handings s.history ++ ·) (Finale.attempts_succ me).symm
  · exact ((reading_skip rfl).trans (reading_skip rfl)).trans h.settled

/-- A chunk is counted, and the next one is to come. -/
private theorem settle (h : OnFinale s tr me k .attempting t) {result : Ending}
    (answer : ((s.finale tr).answer k).resultAfter (t.now - (s.finale tr).begun k)
      t.settings.deliveryTimeout = some result)
    (known : result = .success ∨ ∃ e, result = .failure e)
    (reached : ((t.settled me ((s.finale tr).parcel k) result).setShutdown me
      (.flushing .arriving ((s.finale tr).sent (k + 1)) ((s.finale tr).lost (k + 1)))).Reached) :
    OnFinale s tr me (k + 1) .arriving ((t.settled me ((s.finale tr).parcel k) result).setShutdown
      me (.flushing .arriving ((s.finale tr).sent (k + 1)) ((s.finale tr).lost (k + 1)))) := by
  rw [h.settings] at answer
  obtain ⟨now, success⟩ := Response.ends_in_time h.since h.due answer
  have counted (told : settlements (t.settled me ((s.finale tr).parcel k) result).history =
      settlements t.history ++ [⟨(s.finale tr).tally k, false⟩]) :
      settlements (t.settled me ((s.finale tr).parcel k) result).history =
        settlements s.history ++ (s.finale tr).settlements (k + 1) := by
    rw [told, h.settled, List.append_assoc]
    exact congrArg (settlements s.history ++ ·) Finale.settlements_succ.symm
  rcases known with rfl | ⟨e, rfl⟩
  · have sends : ((s.finale tr).answer k).succeeds (s.finale tr).settings.deliveryTimeout = true :=
      success.mpr rfl
    refine h.enter reached (k + 1) .arriving h.possible rfl ⟨rfl, rfl, rfl⟩ h.transport rfl h.queue
      ?_ (counted ?_) rfl now
    · exact ((reading_skip rfl).trans (reading_skip rfl)).trans h.handed
    · rw [Finale.tally, sends]
      exact settlements_end rfl t.history
  · have fails : ((s.finale tr).answer k).succeeds (s.finale tr).settings.deliveryTimeout = false :=
      eq_false_of_ne_true fun taken => Ending.noConfusion (success.mp taken)
    refine h.enter reached (k + 1) .arriving h.possible rfl ⟨rfl, rfl, rfl⟩ h.transport rfl h.queue
      ?_ (counted ?_) rfl now
    · exact ((reading_skip rfl).trans (reading_skip rfl)).trans h.handed
    · rw [Finale.tally, fails]
      exact settlements_end rfl t.history

/-- It waits for its attempt to end, and then counts the chunk. -/
private theorem step_attempting (h : OnFinale s tr me k .attempting t) (steady : tr.Steady) :
    (t.step? me = none ∧ t.now < (s.finale tr).begun (k + 1)) ∨
      ∃ u, t.step? me = some u ∧ (u.Reached → OnFinale s tr me (k + 1) .arriving u) := by
  have answers : ((s.finale tr).answer k).ending ≠ .breakdown :=
    ((Finale.steady_left (f := s.finale tr) steady k).next).1
  rcases step_of_attempting h.activity answers with ⟨pending, waits⟩ | ⟨answer, step⟩ |
    ⟨e, answer, step⟩
  · refine .inl ⟨waits, ?_⟩
    have early := Response.resultAfter_isSome_iff ((s.finale tr).answer k)
      (t.now - (s.finale tr).begun k) t.settings.deliveryTimeout
    have since := h.since
    rw [pending, h.settings] at early
    have late : ¬ ((s.finale tr).answer k).duration s.settings.deliveryTimeout ≤
        t.now - (s.finale tr).begun k := fun hl => by
      have := early.mpr hl
      contradiction
    change t.now <
      (s.finale tr).begun k + ((s.finale tr).answer k).duration s.settings.deliveryTimeout
    omega
  · refine .inr ⟨_, step, fun reached => ?_⟩
    have timely := answer
    rw [h.settings] at timely
    have sends := (Response.ends_in_time h.since h.due timely).2.mpr rfl
    obtain ⟨sent, lost⟩ := Finale.sent_succ (f := s.finale tr) sends
    have size : (s.finale tr).sent k + ((s.finale tr).parcel k).size =
        (s.finale tr).sent (k + 1) := sent.symm
    rw [size, ← lost] at reached ⊢
    exact h.settle answer (.inl rfl) reached
  · refine .inr ⟨_, step, fun reached => ?_⟩
    have timely := answer
    rw [h.settings] at timely
    have fails : ((s.finale tr).answer k).succeeds s.settings.deliveryTimeout = false :=
      eq_false_of_ne_true fun taken => Ending.noConfusion
        ((Response.ends_in_time h.since h.due timely).2.mp taken)
    obtain ⟨sent, lost⟩ := Finale.lost_succ (f := s.finale tr) fails
    have size : (s.finale tr).lost k + ((s.finale tr).parcel k).size =
        (s.finale tr).lost (k + 1) := lost.symm
    rw [size, ← sent] at reached ⊢
    exact h.settle answer (.inr ⟨e, rfl⟩) reached

/-- With nothing left it returns. -/
private theorem step_last (h : OnFinale s tr me k .admitted t) (last : (s.finale tr).count ≤ k) :
    ∃ u, t.step? me = some u ∧ AfterFinale s tr me u := by
  have all : k = (s.finale tr).count := Nat.le_antisymm h.possible last
  have empty : t.queue = [] := h.queue.trans (Finale.rest_eq_nil_iff.mpr last)
  have next : t.phase.next? .finish = some .stopped := by
    rw [h.winding.stopping]
    rfl
  have moved : t.release.move? .finish =
      some { t.release.report (.moved t.phase .stopped .finish) with phase := .stopped } := by
    rw [move?, show t.release.phase = t.phase from rfl, next]
    rfl
  refine ⟨_, step_of_empty h.activity empty, ?_⟩
  rw [finished, moved, Option.getD_some]
  exact {
    activity := getElem?_set_of_some h.activity _
    stopped := rfl
    now := (h.now Finale.Stage.noConfusion).trans (congrArg _ all)
    queue := empty
    handed := by
      rw [← all]
      exact ((reading_skip rfl).trans (reading_skip rfl)).trans h.handed
    settled := by
      rw [← all]
      exact ((reading_skip rfl).trans (reading_skip rfl)).trans h.settled
    told := by
      rw [← all]
      rfl }

/-- A step of the shutdown leads to a later stage, or the shutdown returns; and only during an
attempt there is none. -/
theorem step (h : OnFinale s tr me k stage t) (steady : tr.Steady) :
    (t.step? me = none ∧ stage = .attempting ∧ t.now < (s.finale tr).begun (stage.taken k)) ∨
      ∃ u, t.step? me = some u ∧ ((∃ k' stage', (s.finale tr).rank k' stage' <
        (s.finale tr).rank k stage ∧ (u.Reached → OnFinale s tr me k' stage' u)) ∨
          AfterFinale s tr me u) := by
  cases stage with
  | arriving =>
    obtain ⟨u, hs, on⟩ := h.step_arriving
    exact .inr ⟨u, hs, .inl ⟨k, .admitted, Nat.lt_succ_self _, on⟩⟩
  | admitted =>
    rcases Nat.lt_or_ge k (s.finale tr).count with more | last
    · obtain ⟨u, hs, on⟩ := h.step_admitted more
      exact .inr ⟨u, hs, .inl ⟨k, .attempting, Nat.lt_succ_self _, on⟩⟩
    · obtain ⟨u, hs, returned⟩ := h.step_last last
      exact .inr ⟨u, hs, .inr returned⟩
  | attempting =>
    rcases h.step_attempting steady with ⟨waits, early⟩ | ⟨u, hs, on⟩
    · exact .inl ⟨waits, rfl, early⟩
    · refine .inr ⟨u, hs, .inl ⟨k + 1, .arriving, ?_, on⟩⟩
      have more : k + 1 ≤ (s.finale tr).count := h.possible
      simp only [Finale.rank, Finale.Stage.rank]
      omega

/-- A step of the shutdown that is known leads to a later stage, or the shutdown returns. -/
theorem next (h : OnFinale s tr me k stage t) (steady : tr.Steady) (hs : t.step? me = some u) :
    (∃ k' stage', (s.finale tr).rank k' stage' < (s.finale tr).rank k stage ∧
      OnFinale s tr me k' stage' u) ∨ AfterFinale s tr me u := by
  rcases h.step steady with ⟨none, _⟩ | ⟨v, hv, later⟩
  · rw [none] at hs
    contradiction
  · obtain rfl : v = u := Option.some.inj (hv.symm.trans hs)
    rcases later with ⟨k', stage', less, on⟩ | returned
    · exact .inl ⟨k', stage', less, on (h.winding.reached.acts (.step hs))⟩
    · exact .inr returned

/-- What others do leaves the finale as it is. -/
private theorem beside (h : OnFinale s tr me k stage t) (reached : u.Reached)
    (beside : t.Beside u) : OnFinale s tr me k stage u where
  winding := h.winding.beside reached beside
  possible := h.possible
  activity := (beside.busy fun aloof => by cases aloof).mpr h.activity
  transport := beside.transport.trans h.transport
  settings := beside.settings.trans h.settings
  queue := beside.queue.trans h.queue
  handed := (beside.reading fun _ => handing_of_delivery).trans h.handed
  settled := (beside.reading fun _ => settlement_of_delivery).trans h.settled
  since := beside.now.symm ▸ h.since
  due := beside.now.symm ▸ h.due

/-- During an attempt the shutdown waits for its end. -/
theorem deadline (h : OnFinale s tr me k .attempting t) :
    t.deadline me = some ((s.finale tr).begun (k + 1)) := by
  rw [State.deadline, h.activity, h.settings]
  rfl

/-- Time passes during an attempt only, and no further than to its end. -/
private theorem elapse (h : OnFinale s tr me k stage t) (steady : tr.Steady) {millis : Nat}
    (prompt : t.Prompt me (.elapse millis)) (reached : (t.elapse millis).Reached) :
    OnFinale s tr me k stage (t.elapse millis) := by
  obtain ⟨idle, limits⟩ := prompt.idle h.activity fun he => by cases he
  rcases h.step steady with ⟨_, rfl, _⟩ | ⟨u, hs, _⟩
  · exact {
      h with
      winding := ⟨reached, h.winding.closed, h.winding.shutdown, h.winding.stopping,
        h.winding.others⟩
      since := Nat.le_trans h.since (Nat.le_add_right _ _)
      due := limits _ h.deadline }
  · rw [idle] at hs
    contradiction

/-- A finale is kept until the shutdown returns. -/
theorem keeps (s : State) (me : ActivityId) (steady : tr.Steady) :
    Keeps me (fun t => ∃ k stage, OnFinale s tr me k stage t) (AfterFinale s tr me) where
  winding := fun ⟨_, _, h⟩ => h.winding
  beside := fun ⟨k, stage, h⟩ reached beside => ⟨k, stage, h.beside reached beside⟩
  loop := by
    rintro t u i l c ⟨k, stage, h⟩ hi ha _ _
    cases h.alone hi ha
  mine := by
    rintro t u ⟨k, stage, h⟩ hs _
    rcases h.next steady hs with ⟨k', stage', _, on⟩ | returned
    · exact .inl ⟨k', stage', on⟩
    · exact .inr returned
  elapse := fun ⟨k, stage, h⟩ prompt reached => ⟨k, stage, h.elapse steady prompt reached⟩
  ended := by
    intro t h
    rw [isEnded, h.activity]

/-- During an attempt time may pass to its end, and the shutdown can go on then. -/
theorem wait (h : OnFinale s tr me k .attempting t) (steady : tr.Steady)
    (waits : t.step? me = none) (early : t.now < (s.finale tr).begun (k + 1)) :
    let millis := (s.finale tr).begun (k + 1) - t.now
    t.Prompt me (.elapse millis) ∧ OnFinale s tr me k .attempting (t.elapse millis) ∧
      ∃ u, (t.elapse millis).step? me = some u := by
  intro millis
  have due : t.now + millis = (s.finale tr).begun (k + 1) :=
    Nat.add_sub_of_le (Nat.le_of_lt early)
  have prompt : t.Prompt me (.elapse millis) := by
    refine h.winding.prompt fun i a ha part => ?_
    have hi : i = me := by
      rcases part with hi | ⟨l, c, rfl⟩
      · exact hi
      · by_contra hi
        cases h.alone hi ha
    subst hi
    refine ⟨waits, fun limit hl => ?_⟩
    obtain rfl := Option.some.inj (h.deadline.symm.trans hl)
    exact Nat.le_of_eq due
  have waited := h.elapse steady prompt (h.winding.reached.run [.elapse millis])
  refine ⟨prompt, waited, ?_⟩
  rcases waited.step steady with ⟨_, _, late⟩ | ⟨u, hs, _⟩
  · exact absurd due (Nat.ne_of_lt late)
  · exact ⟨u, hs⟩

/-- A finale can be run to its end: time passes to the end of an attempt, and the shutdown makes its
steps. -/
theorem can_end (h : OnFinale s tr me k stage t) (steady : tr.Steady) : t.CanEnd me := by
  -- Every step leads to a later stage.
  induction hn : (s.finale tr).rank k stage using Nat.strongRecOn generalizing k stage t with
  | ind n ih =>
    have under {t : State} {k : Nat} {stage : Finale.Stage} (h : OnFinale s tr me k stage t) :
        t.isEnded me = false := by
      rw [isEnded, h.activity]
      rfl
    have goes {t u : State} (h : OnFinale s tr me k stage t) (hs : t.step? me = some u) :
        t.CanEnd me := by
      refine .of_step (under h) hs ?_
      rcases h.next steady hs with ⟨k', stage', less, on⟩ | returned
      · exact ih _ (hn ▸ less) on rfl
      · exact .of_ended ((keeps s me steady).ended returned)
    rcases h.step steady with ⟨waits, rfl, early⟩ | ⟨u, hs, _⟩
    · obtain ⟨prompt, waited, u, hs⟩ := h.wait steady waits early
      exact .of_elapse (under h) prompt (goes waited hs)
    · exact goes h hs

end OnFinale

end EventRelay.Publisher
