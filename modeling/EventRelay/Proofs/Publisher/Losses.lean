import EventRelay.Proofs.Publisher.Conservation
import EventRelay.Proofs.Publisher.Frames

/-!
# Losses are logged

Every batch that is dropped is reported once, as an error, with the number of its events and the
identities of the first five of them, and nothing else is reported as an error. Every event that an
open publisher refuses is reported once, as a warning that names it. So the errors add up to what
the counters call dropped, and the warnings to what they call refused by a full queue.
-/

namespace EventRelay.Publisher

open Relation

/-- The loss of a batch. -/
structure Loss where
  /-- How many events were lost. -/
  count : Nat
  /-- The first of them. -/
  sample : List EventId
  deriving DecidableEq, Repr

/-- The loss of a batch with the given events. -/
def Loss.of (events : List Event) : Loss := ⟨events.length, (events.take 5).map Event.id⟩

/-- The loss that a report tells of. -/
def Notice.loss? : Notice → Option Loss
  | .noCollector count sample => some ⟨count, sample⟩
  | .dropped _ count sample => some ⟨count, sample⟩
  | .abandoned count sample => some ⟨count, sample⟩
  | _ => none

namespace Observation

/-- The report that the log shows as an error. -/
def error? : Observation → Option Notice
  | .notice n => if n.line.level = .error then some n else none
  | _ => none

/-- The loss that is reported. -/
def loss? : Observation → Option Loss
  | .notice n => n.loss?
  | _ => none

/-- The report of an event that was refused because the queue is full. -/
def overflow? : Observation → Option Notice
  | .notice (.queueFull id kind capacity) => some (.queueFull id kind capacity)
  | _ => none

end Observation

/-- The reports that the log shows as errors, in order. -/
def errors (history : List Observation) : List Notice := reading Observation.error? history

/-- The losses that are reported, in order. -/
def losses (history : List Observation) : List Loss := reading Observation.loss? history

/-- The reports of a full queue, in order. -/
def overflows (history : List Observation) : List Notice := reading Observation.overflow? history

/-- The line of a loss shows it in its last two fields. -/
theorem Notice.fields_of_loss {n : Notice} {l : Loss} (h : n.loss? = some l) :
    [("count", .plain (Log.number l.count)), ("sample", .plain (Log.sample l.sample))] <:+
      n.line.fields := by
  cases n with
  | noCollector =>
    cases h
    exact List.suffix_rfl
  | dropped =>
    cases h
    exact List.suffix_cons _ _
  | abandoned =>
    cases h
    exact List.suffix_rfl
  | _ => contradiction

/-- Errors and losses are the same reports. -/
theorem map_loss_errors (history : List Observation) :
    (errors history).map Notice.loss? = (losses history).map some := by
  have alike (o : Observation) : o.error?.map Notice.loss? = o.loss?.map some := by
    cases o with
    | notice n => cases n <;> rfl
    | _ => rfl
  induction history with
  | nil => rfl
  | cons o older ih =>
    rw [errors, losses, reading_cons, reading_cons, List.map_append, List.map_append,
      ← Option.toList_map, ← Option.toList_map, alike]
    exact congrArg (· ++ _) ih

/-- Losses are counted as dropped, and nothing else is. -/
theorem map_count_losses (history : List Observation) :
    (losses history).map Loss.count =
      ((tallies history).filter fun t => t.delivered == false).map Tally.events := by
  have alike (o : Observation) : o.loss?.toList.map Loss.count =
      (o.tally?.toList.filter fun t => t.delivered == false).map Tally.events := by
    cases o with
    | notice n => cases n <;> rfl
    | _ => rfl
  induction history with
  | nil => rfl
  | cons o older ih =>
    rw [losses, tallies, reading_cons, reading_cons, List.map_append, List.filter_append,
      List.map_append, alike]
    exact congrArg (· ++ _) ih

/-- There are as many errors as batches that are counted as dropped. -/
theorem length_errors (history : List Observation) : (errors history).length =
    ((tallies history).filter fun t => t.delivered == false).length := by
  have paired := congrArg List.length (map_loss_errors history)
  have counted := congrArg List.length (map_count_losses history)
  rw [List.length_map, List.length_map] at paired counted
  exact paired.trans counted

/-- Every error reports a loss. -/
theorem exists_loss_of_error {history : List Observation} {n : Notice} (h : n ∈ errors history) :
    ∃ l ∈ losses history, n.loss? = some l := by
  have read : n.loss? ∈ (losses history).map some := by
    rw [← map_loss_errors]
    exact List.mem_map_of_mem h
  obtain ⟨l, hl, same⟩ := List.mem_map.mp read
  exact ⟨l, hl, same.symm⟩

/-- Whether a batch was dropped, after its last attempt or before. -/
def Shipment.isDropped (sh : Shipment) : Bool :=
  match sh.fate with
  | some (.dropped _) => true
  | some .abandoned => true
  | _ => false

namespace Shipment

/-- A shipment tells of the loss of its batch, once, if it is dropped. -/
theorem losses_told (sh : Shipment) : sh.told.filterMap Observation.loss? =
    if sh.isDropped then [Loss.of sh.batch.events] else [] := by
  obtain ⟨actor, batch, ⟨begun, answer⟩, second, fate⟩ := sh
  rcases fate with _ | (_ | e | _) <;>
    cases answer <;> rcases second with _ | ⟨begun', _ | answer'⟩ <;> rfl

end Shipment

/-- The losses are those of the shipments that were dropped. -/
theorem Accounts.losses {b : Books} {past : List Shipment} {now : Option Shipment}
    (h : Accounts b past now) : Publisher.losses b.tale =
      ((past ++ now.toList).filter Shipment.isDropped).map fun sh => Loss.of sh.batch.events := by
  have blind (o : Observation) (ho : o.delivery? = none) : o.loss? = none := by
    cases o with
    | notice n => cases n <;> first | rfl | contradiction
    | _ => rfl
  rw [Publisher.losses, reading_deliveries blind, h.told, List.filterMap_flatMap]
  simp only [Shipment.losses_told]
  induction past ++ now.toList with
  | nil => rfl
  | cons sh rest ih =>
    rw [List.flatMap_cons, ih, List.filter_cons]
    split <;> rfl

theorem losses_tale (s : State) : losses s.books.tale = losses s.history :=
  reading_filter (fun o h => by
    cases o with
    | notice n => cases n <;> first | rfl | contradiction
    | _ => rfl) _

/-- Activities leave the number of refusals as it is. -/
theorem Books.Work.queueFull {b b' : Books} (w : b.Work b') :
    b'.stats.queueFull = b.stats.queueFull := by
  cases w with
  | @settle _ _ _ _ _ _ _ _ _ _ fate => cases fate <;> rfl
  | _ => rfl

namespace State

/-- The event that an action offers to an open publisher in vain. -/
def overflow (s : State) : Action → List Event
  | .offer e => if s.enabled && !s.closed && !(s.offer e).2 then [e] else []
  | _ => []

/-- The events that were offered to the open publisher in vain, in order. -/
def turnedAway (s : State) : List Action → List Event
  | [] => []
  | a :: rest => s.overflow a ++ (s.apply a).turnedAway rest

/-- The report of an event that was turned away. -/
def fullNotice (s : State) (e : Event) : Notice :=
  .queueFull e.id e.kind s.settings.maxQueueSize.value

/-- An offer reports a full queue exactly if it is made to an open publisher in vain. -/
private theorem overflows_offer (s : State) (e : Event) :
    overflows (s.offer e).1.history =
        overflows s.history ++ (s.overflow (.offer e)).map s.fullNotice ∧
      (s.offer e).1.stats.queueFull = s.stats.queueFull + (s.overflow (.offer e)).length := by
  unfold overflow offer
  split
  · next shut =>
    have off : (s.enabled && !s.closed) = false := by
      revert shut
      cases s.enabled <;> cases s.closed <;> decide
    rw [off]
    exact ⟨(reading_skip rfl).trans ((reading_skip rfl).trans (List.append_nil _).symm), rfl⟩
  · next live =>
    have on : (s.enabled && !s.closed) = true := by
      revert live
      cases s.enabled <;> cases s.closed <;> decide
    rw [on]
    split
    · -- Waking the loop tells nothing.
      dsimp only
      split <;> exact ⟨(reading_skip rfl).trans (List.append_nil _).symm, rfl⟩
    · exact ⟨(reading_skip rfl).trans (reading_find rfl), rfl⟩

/-- An action reports the events that it turns away, and counts them. -/
private theorem overflows_apply (s : State) (a : Action) :
    overflows (s.apply a).history = overflows s.history ++ (s.overflow a).map s.fullNotice ∧
      (s.apply a).stats.queueFull = s.stats.queueFull + (s.overflow a).length := by
  rcases a.offer_or with ⟨e, rfl⟩ | other
  · exact s.overflows_offer e
  · have none : s.overflow a = [] := by
      cases a with
      | offer e => exact absurd rfl (other e)
      | _ => rfl
    rw [none, List.map_nil, List.append_nil]
    refine ⟨s.reading_apply other fun o h => ?_, ?_⟩
    · cases o with
      | notice n => cases n <;> first | rfl | contradiction
      | _ => rfl
    · exact s.apply_keeps (P := fun b => b.stats.queueFull = s.stats.queueFull)
        (fun w hb => w.queueFull.trans hb) rfl other

/-- A run reports the events that it turns away, each once and in order, and counts them. -/
theorem overflows_run (s : State) (actions : List Action) :
    overflows (s.run actions).history =
        overflows s.history ++ (s.turnedAway actions).map s.fullNotice ∧
      (s.run actions).stats.queueFull = s.stats.queueFull + (s.turnedAway actions).length := by
  induction actions generalizing s with
  | nil => exact ⟨(List.append_nil _).symm, rfl⟩
  | cons a rest ih =>
    obtain ⟨told, counted⟩ := s.overflows_apply a
    obtain ⟨told', counted'⟩ := ih (s.apply a)
    have settings : (s.apply a).settings = s.settings := s.settings_run [a]
    have notice : (s.apply a).fullNotice = s.fullNotice := by
      funext e
      rw [fullNotice, settings, fullNotice]
    constructor
    · rw [run_cons, told', told, notice, turnedAway, List.map_append, List.append_assoc]
    · rw [run_cons, counted', counted, turnedAway, List.length_append, Nat.add_assoc]

end State

/-- However a publisher is made, no report of a full queue stands in its history. -/
theorem Made.overflows {s : State} (made : Made s) : overflows s.history = [] := by
  refine List.filterMap_eq_nil_iff.mpr fun o ho => ?_
  have stands := made.untouched.history.subset (List.mem_reverse.mp ho)
  rw [List.mem_singleton.mp stands]
  rfl

/-- Every drop is logged once. The errors in the log are as many as the batches that were dropped,
and the counts in them add up to the events that were dropped: one error for each batch that was
dropped after its last attempt or cut off, in the order in which the batches were taken off the
queue, with the number of its events and the identities of the first five as its last fields. The
warnings of a full queue are those of the events that were offered to an open publisher in vain,
each once, in order and by name, and as many as the counter says. -/
theorem drops_are_logged_once {s₀ : State} (made : Made s₀) (actions : List Action) :
    let s := s₀.run actions
    (errors s.history).length = s.stats.batchesDropped ∧
    ((losses s.history).map Loss.count).sum = s.stats.eventsDropped ∧
    (errors s.history).map Notice.loss? = (losses s.history).map some ∧
    (∀ n ∈ errors s.history, ∃ l ∈ losses s.history, n.loss? = some l ∧
      [("count", .plain (Log.number l.count)), ("sample", .plain (Log.sample l.sample))] <:+
        n.line.fields) ∧
    (∃ shipments : List Shipment,
      deliveries s.history = shipments.flatMap Shipment.told ∧
      (∀ sh ∈ shipments, sh.Lawful s₀.settings) ∧
      s₀.taken actions = (shipments.flatMap fun sh => sh.batch.events) ++ s.queue ∧
      losses s.history =
        (shipments.filter Shipment.isDropped).map fun sh => Loss.of sh.batch.events) ∧
    overflows s.history = (s₀.turnedAway actions).map (fun e =>
      .queueFull e.id e.kind s₀.settings.maxQueueSize.value) ∧
    (∀ n ∈ overflows s.history, ∃ e ∈ s₀.turnedAway actions, n.line.level = .warn ∧
      ("event_id", .plain e.id.text) ∈ n.line.fields) ∧
    (overflows s.history).length = s.stats.queueFull := by
  intro s
  obtain ⟨past, now, h⟩ : ∃ past now, Accounts s.books past now :=
    (made.audited actions).accounts
  have counted : Counted s.stats s.books.tale := made.counted actions
  obtain ⟨told, full⟩ := s₀.overflows_run actions
  rw [made.overflows, List.nil_append] at told
  have none : s₀.stats.queueFull = 0 := by
    rw [made.untouched.stats]
  refine ⟨?_, ?_, map_loss_errors s.history, fun n hn => ?_,
    ⟨past ++ now.toList, ?_, fun sh hm => ?_, ?_, ?_⟩, told, fun n hn => ?_, ?_⟩
  · rw [length_errors, counted.batchesDropped, tallies_tale, talliedBatches,
      List.countP_eq_length_filter]
  · rw [map_count_losses, counted.dropped, tallies_tale]
    rfl
  · obtain ⟨l, hl, same⟩ := exists_loss_of_error hn
    exact ⟨l, hl, same, Notice.fields_of_loss same⟩
  · rw [← deliveries_tale]
    exact h.told
  · rw [← s₀.settings_run actions]
    exact h.lawful_of_mem hm
  · rw [← made.accepted_tale]
    exact h.whole
  · rw [← losses_tale]
    exact h.losses
  · rw [told] at hn
    obtain ⟨e, he, rfl⟩ := List.mem_map.mp hn
    exact ⟨e, he, rfl, List.mem_cons_self⟩
  · rw [told, List.length_map]
    change _ = (s₀.run actions).stats.queueFull
    rw [full, none, Nat.zero_add]

/-- Of four events the last finds the queue full. The batch of the first two is dropped after its
second attempt, and the batch of the third is cut off. -/
theorem two_losses_and_a_refusal_are_logged :
    let busy : Response := ⟨0, .failure (.status 503 "busy")⟩
    let s₀ := small [busy, busy, ⟨10, .success⟩]
    let s := s₀.run (offers 4 ++
      [.flush, .poll 0, .elapse 200, .poll 0, .flush, .poll 1, .cancel 1])
    Made s₀ ∧
    (errors s.history).length = s.stats.batchesDropped ∧
    ((losses s.history).map Loss.count).sum = s.stats.eventsDropped ∧
    losses s.history = [⟨2, [⟨0⟩, ⟨1⟩]⟩, ⟨1, [⟨2⟩]⟩] ∧
    overflows s.history = [.queueFull ⟨3⟩ (numbered 3).kind 3] ∧
    s.stats.batchesDropped = 2 ∧ s.stats.eventsDropped = 3 := by
  have logged := drops_are_logged_once (made_small [⟨0, .failure (.status 503 "busy")⟩,
    ⟨0, .failure (.status 503 "busy")⟩, ⟨10, .success⟩]) (offers 4 ++
      [.flush, .poll 0, .elapse 200, .poll 0, .flush, .poll 1, .cancel 1])
  exact ⟨made_small _, logged.1, logged.2.1, rfl, rfl, rfl, rfl⟩

end EventRelay.Publisher
