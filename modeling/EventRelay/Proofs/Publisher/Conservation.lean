import EventRelay.Proofs.Publisher.Shipments
import Mathlib.Algebra.GroupWithZero.Nat

/-!
# Conservation of events

Every offer is counted once: as accepted, as rejected, or as refused by a full queue. Every accepted
event is delivered, dropped, queued or in flight, and the counters say how many there are of each.
The batches in the history are counted one after the other, each once; only the batch in flight is
not counted yet.
-/

namespace EventRelay.Publisher

open Relation

/-- Whether an action is an offer. -/
def Action.isOffer : Action → Bool
  | .offer _ => true
  | _ => false

/-- The events that an activity has taken and not counted. -/
def Activity.flight (a : Activity) : List Event := (a.cycle?.map Cycle.flight).getD []

/-- The events in flight. -/
def State.inFlight (s : State) : List Event := s.activities.flatMap Activity.flight

/-- The number of events that were counted as delivered, or as dropped. -/
def tallied (delivered : Bool) (counts : List Tally) : Nat :=
  ((counts.filter fun t => t.delivered == delivered).map Tally.events).sum

/-- The number of batches that were counted as delivered, or as dropped. -/
def talliedBatches (delivered : Bool) (counts : List Tally) : Nat :=
  counts.countP fun t => t.delivered == delivered

/-- Every event that is counted is counted as delivered or as dropped. -/
theorem tallied_add (counts : List Tally) :
    tallied true counts + tallied false counts = (counts.map Tally.events).sum := by
  induction counts with
  | nil => rfl
  | cons t rest ih =>
    obtain ⟨events, delivered⟩ := t
    unfold tallied at ih ⊢
    cases delivered with
    | true =>
      simp only [List.filter_cons, List.map_cons, List.sum_cons, beq_self_eq_true, ite_true,
        Bool.true_beq, Bool.false_eq_true, ite_false]
      omega
    | false =>
      simp only [List.filter_cons, List.map_cons, List.sum_cons, beq_self_eq_true, ite_true,
        Bool.false_beq, Bool.not_true, Bool.false_eq_true, ite_false]
      omega

/-- Adds a count to the counters. -/
def Stats.credit (stats : Stats) (t : Tally) : Stats :=
  if t.delivered then stats.recordDelivered t.events else stats.recordDropped t.events

/-- How a batch that meets a fate is counted. -/
def Fate.tally (batch : Envelope) : Fate → Tally
  | .delivered => ⟨batch.size, true⟩
  | _ => ⟨batch.size, false⟩

theorem Fate.tally_notice (f : Fate) (batch : Envelope) :
    (Observation.notice (f.notice batch)).tally? = some (f.tally batch) := by
  cases f <;> rfl

theorem Fate.count_eq_credit (f : Fate) (stats : Stats) (batch : Envelope) :
    f.count stats batch = stats.credit (f.tally batch) := by
  cases f <;> rfl

/-- The counters agree with a tale. -/
structure Counted (stats : Stats) (tale : List Observation) : Prop where
  accepted : stats.accepted = (accepted tale).length
  delivered : stats.eventsDelivered = tallied true (tallies tale)
  dropped : stats.eventsDropped = tallied false (tallies tale)
  batchesDelivered : stats.batchesDelivered = talliedBatches true (tallies tale)
  batchesDropped : stats.batchesDropped = talliedBatches false (tallies tale)

namespace Counted

variable {stats : Stats} {tale : List Observation} {o : Observation}

/-- Telling of anything but an acceptance or a count leaves the counters alone. -/
theorem skip (h : Counted stats tale) (ha : o.accepted? = none) (ht : o.tally? = none) :
    Counted stats (o :: tale) := by
  have hat : Publisher.accepted (o :: tale) = Publisher.accepted tale := reading_skip ha
  have htt : tallies (o :: tale) = tallies tale := reading_skip ht
  constructor
  · rw [hat, h.accepted]
  · rw [htt, h.delivered]
  · rw [htt, h.dropped]
  · rw [htt, h.batchesDelivered]
  · rw [htt, h.batchesDropped]

/-- A report that announces a count goes with that count. -/
theorem credit (h : Counted stats tale) {t : Tally} (ha : o.accepted? = none)
    (ht : o.tally? = some t) : Counted (stats.credit t) (o :: tale) := by
  have hat : Publisher.accepted (o :: tale) = Publisher.accepted tale := reading_skip ha
  have htt : tallies (o :: tale) = tallies tale ++ [t] := reading_find ht
  obtain ⟨events, delivered⟩ := t
  obtain ⟨ha, hd, hl, hbd, hbl⟩ := h
  cases delivered with
  | true =>
    constructor
    · rw [hat, ← ha]
      rfl
    · simp [htt, tallied, Stats.credit, Stats.recordDelivered, hd]
    · simp [htt, tallied, Stats.credit, Stats.recordDelivered, hl]
    · simp [htt, talliedBatches, Stats.credit, Stats.recordDelivered, hbd]
    · simp [htt, talliedBatches, Stats.credit, Stats.recordDelivered, hbl]
  | false =>
    constructor
    · rw [hat, ← ha]
      rfl
    · simp [htt, tallied, Stats.credit, Stats.recordDropped, hd]
    · simp [htt, tallied, Stats.credit, Stats.recordDropped, hl]
    · simp [htt, talliedBatches, Stats.credit, Stats.recordDropped, hbd]
    · simp [htt, talliedBatches, Stats.credit, Stats.recordDropped, hbl]

/-- A batch that meets a fate is counted when this is reported. -/
theorem settle (h : Counted stats tale) (f : Fate) (batch : Envelope) :
    Counted (f.count stats batch) (.notice (f.notice batch) :: tale) := by
  rw [f.count_eq_credit]
  exact h.credit (by cases f <;> rfl) (f.tally_notice batch)

end Counted

/-- Every entry keeps the counters in accord with the tale. -/
theorem Books.Step.counted {b b' : Books} (step : b.Step b') (h : Counted b.stats b.tale) :
    Counted b'.stats b'.tale := by
  cases step with
  | @offer e v _ =>
    cases v with
    | accepted =>
      have ha : accepted (.offered e .accepted :: b.tale) = accepted b.tale ++ [e] :=
        reading_find rfl
      have ht : tallies (.offered e .accepted :: b.tale) = tallies b.tale :=
        reading_skip rfl
      constructor
      · change b.stats.accepted + 1 = (accepted (.offered e .accepted :: b.tale)).length
        rw [ha, List.length_append, h.accepted]
        rfl
      · exact h.delivered.trans (congrArg (tallied true) ht.symm)
      · exact h.dropped.trans (congrArg (tallied false) ht.symm)
      · exact h.batchesDelivered.trans (congrArg (talliedBatches true) ht.symm)
      · exact h.batchesDropped.trans (congrArg (talliedBatches false) ht.symm)
    | rejected =>
      have hs : Counted b.stats (.offered e .rejected :: b.tale) := h.skip rfl rfl
      exact ⟨hs.accepted, hs.delivered, hs.dropped, hs.batchesDelivered, hs.batchesDropped⟩
    | full =>
      have hs : Counted b.stats (.offered e .full :: b.tale) := h.skip rfl rfl
      exact ⟨hs.accepted, hs.delivered, hs.dropped, hs.batchesDelivered, hs.batchesDropped⟩
  | work w =>
    cases w with
    | join => exact h
    | shift => exact h
    | @discard me _ _ _ events =>
      have hd : Counted b.stats (.drained me events :: b.tale) := h.skip rfl rfl
      exact hd.credit (t := ⟨events.length, false⟩) rfl rfl
    | ship =>
      exact (h.skip (o := .drained ..) rfl rfl).skip rfl rfl
    | @retry me _ _ _ time _ _ e =>
      have hs : Counted b.stats (.answered me time (.failure e) :: b.tale) := h.skip rfl rfl
      exact ⟨hs.accepted, hs.delivered, hs.dropped, hs.batchesDelivered, hs.batchesDropped⟩
    | resume => exact h.skip rfl rfl
    | @settle me _ _ _ batch _ _ time _ answer fate =>
      cases answer with
      | none => exact h.settle fate batch
      | some result =>
        have ha : Counted b.stats (.answered me time result :: b.tale) := h.skip rfl rfl
        exact ha.settle fate batch
    | @forgo _ _ _ _ batch => exact h.settle .abandoned batch

/-- In every reachable state the counters agree with the tale. -/
theorem Made.counted {s : State} (made : Made s) (actions : List Action) :
    Counted (s.run actions).stats (s.run actions).books.tale := by
  refine s.books_run_keeps (P := fun b => Counted b.stats b.tale) Books.Step.counted ?_ actions
  rw [made.books_tale, show s.books.stats = {} from made.untouched.stats]
  exact ⟨rfl, rfl, rfl, rfl, rfl⟩

/-- The number of offers that were counted. -/
def Stats.offers (stats : Stats) : Nat := stats.accepted + stats.rejected + stats.queueFull

/-- Activities count no offers. -/
theorem Books.Work.offers {b b' : Books} (w : b.Work b') : b'.stats.offers = b.stats.offers := by
  cases w with
  | @settle _ _ _ _ _ _ _ _ _ _ fate => cases fate <;> rfl
  | _ => rfl

/-- An offer is counted once, whatever becomes of it. -/
theorem Books.offers_offer (b : Books) (e : Event) (v : Verdict) :
    (b.offer e v).stats.offers = b.stats.offers + 1 := by
  cases v <;> simp only [Books.offer, Stats.offers] <;> omega

/-- Every offer of a run is counted, and nothing else is. -/
theorem State.offers_run (s : State) (actions : List Action) :
    (s.run actions).stats.offers = s.stats.offers + actions.countP Action.isOffer := by
  induction actions generalizing s with
  | nil => rfl
  | cons a rest ih =>
    rw [run_cons, ih]
    rcases a.offer_or with ⟨e, rfl⟩ | other
    · have hs : (s.offer e).1.stats.offers = s.stats.offers + 1 := by
        rcases s.books_offer e with ⟨_, hb⟩ | ⟨_, v, _, hb⟩
        · exact (congrArg (fun b => b.stats.offers) hb).trans (s.books.offers_offer e _)
        · exact (congrArg (fun b => b.stats.offers) hb).trans (s.books.offers_offer e v)
      rw [apply, hs, List.countP_cons_of_pos rfl]
      omega
    · have hn : a.isOffer = false := by
        cases a with
        | offer e => exact absurd rfl (other e)
        | _ => rfl
      have hs : (s.apply a).stats.offers = s.stats.offers :=
        s.apply_keeps (P := fun b => b.stats.offers = s.stats.offers)
          (fun w hb => w.offers.trans hb) rfl other
      rw [hs, List.countP_cons_of_neg (by rw [hn]; exact Bool.false_ne_true)]

section flight

variable {α β : Type} {f : α → List β} {l : List α}

private theorem flatMap_of_empty (h : ∀ a ∈ l, f a = []) : l.flatMap f = [] :=
  List.flatMap_eq_nil_iff.mpr h

private theorem flatMap_of_unique {i : Nat} {a : α} (h : l[i]? = some a)
    (others : ∀ j b, l[j]? = some b → j ≠ i → f b = []) : l.flatMap f = f a := by
  induction l generalizing i with
  | nil => contradiction
  | cons x rest ih =>
    rw [List.flatMap_cons]
    cases i with
    | zero =>
      have hx : x = a := Option.some.inj h
      have hr : rest.flatMap f = [] := flatMap_of_empty fun b hb => by
        obtain ⟨j, hj⟩ := List.mem_iff_getElem?.mp hb
        exact others (j + 1) b hj (Nat.succ_ne_zero j)
      rw [hx, hr, List.append_nil]
    | succ i =>
      have hx : f x = [] := others 0 x rfl (Nat.zero_ne_add_one i)
      have hr : rest.flatMap f = f a :=
        ih h fun j b hj hne => others (j + 1) b hj fun he => hne (Nat.succ.inj he)
      rw [hx, hr, List.nil_append]

end flight

/-- The events in flight are those of the batch that a flush cycle carries. -/
theorem Cycle.flight_eq (c : Cycle) : c.flight = (c.batch?.map Envelope.events).getD [] := by
  cases c <;> rfl

namespace State

variable {s : State} {i : ActivityId}

private theorem flight_of_idle {a : Activity} (ha : s.activity? i = some a)
    (hn : ∀ batch, ¬ s.Carries i batch) : a.flight = [] := by
  rw [Activity.flight]
  cases hc : a.cycle? with
  | none => rfl
  | some c =>
    rw [Option.map_some, Option.getD_some, c.flight_eq]
    cases hb : c.batch? with
    | none => rfl
    | some batch => exact absurd ⟨a, c, ha, hc, hb⟩ (hn batch)

/-- Nothing is in flight if nobody carries a batch. -/
theorem inFlight_of_none (h : ∀ i batch, ¬ s.Carries i batch) : s.inFlight = [] := by
  refine flatMap_of_empty fun a ha => ?_
  obtain ⟨i, hi⟩ := List.mem_iff_getElem?.mp ha
  exact flight_of_idle (i := i) hi (h i)

/-- The events in flight are those of the only batch that is carried. -/
theorem inFlight_of_carries {batch : Envelope} (h : s.Carries i batch)
    (unique : ∀ j batch', s.Carries j batch' → j = i) : s.inFlight = batch.events := by
  obtain ⟨a, c, ha, hc, hb⟩ := h
  have hf : a.flight = batch.events := by
    rw [Activity.flight, hc, Option.map_some, Option.getD_some, c.flight_eq, hb]
    rfl
  rw [← hf]
  refine flatMap_of_unique ha fun j b hj hne => ?_
  exact flight_of_idle hj fun batch' hc => hne (unique j batch' hc)

end State

namespace Shipment

/-- A shipment tells of one batch that is taken off the queue. -/
theorem drained_told (sh : Shipment) :
    sh.told.filterMap Observation.drained? = [sh.batch.events] := by
  obtain ⟨actor, batch, ⟨begun, answer⟩, second, fate⟩ := sh
  cases answer <;> rcases second with _ | ⟨begun', _ | answer'⟩ <;> cases fate <;> rfl

/-- A shipment is counted once, when its batch meets its fate. -/
theorem tallies_told (sh : Shipment) :
    sh.told.filterMap Observation.tally? = (sh.fate.map fun f => f.tally sh.batch).toList := by
  obtain ⟨actor, batch, ⟨begun, answer⟩, second, fate⟩ := sh
  rcases fate with _ | (_ | e | _) <;>
    cases answer <;> rcases second with _ | ⟨begun', _ | answer'⟩ <;> rfl

end Shipment

namespace Accounts

variable {b : Books} {past : List Shipment} {now : Option Shipment}

/-- The batches taken off the queue are those of the shipments. -/
theorem drained (h : Accounts b past now) :
    Publisher.drained b.tale = (past ++ now.toList).map fun sh => sh.batch.events := by
  rw [Publisher.drained, reading_deliveries fun _ => Observation.drained_of_delivery, h.told,
    List.filterMap_flatMap]
  simp only [Shipment.drained_told]
  exact List.flatMap_pure_eq_map _ _

/-- The counts are those of the shipments in the past. -/
theorem tallies (h : Accounts b past now) :
    (Publisher.tallies b.tale).map Tally.events = past.map fun sh => sh.batch.size := by
  have hn : now.toList.flatMap (fun sh => (sh.fate.map fun f => f.tally sh.batch).toList) = [] := by
    cases now with
    | none => rfl
    | some sh =>
      rw [Option.toList_some, List.flatMap_singleton, h.uncounted rfl]
      rfl
  have size (sh : Shipment) (hf : sh.fate ≠ none) :
      (sh.fate.map fun f => f.tally sh.batch).toList.map Tally.events = [sh.batch.size] := by
    cases hs : sh.fate with
    | none => exact absurd hs hf
    | some f => cases f <;> rfl
  rw [Publisher.tallies, reading_deliveries (fun o ho => ?_), h.told, List.filterMap_flatMap]
  · simp only [Shipment.tallies_told]
    rw [List.flatMap_append, hn, List.append_nil]
    have counted := h.counted
    clear h hn
    induction past with
    | nil => rfl
    | cons sh rest ih =>
      rw [List.flatMap_cons, List.map_append, size sh (counted sh (List.mem_cons_self ..)),
        ih fun other ho => counted other (List.mem_cons_of_mem _ ho)]
      rfl
  · unfold Observation.delivery? at ho
    unfold Observation.tally?
    split <;> first | contradiction | rfl

/-- What was accepted was counted, is in flight, or is queued. -/
theorem length_accepted (h : Accounts b past now) :
    (accepted b.tale).length = ((Publisher.tallies b.tale).map Tally.events).sum +
      (now.toList.map fun sh => sh.batch.size).sum + b.queue.length := by
  rw [h.whole, h.tallies, List.length_append, List.length_flatMap, List.map_append,
    List.sum_append]
  rfl

/-- The events in flight are those of the current shipment. -/
theorem inFlight {s : State} (h : Accounts s.books past now) :
    s.inFlight = (now.map fun sh => sh.batch.events).getD [] := by
  cases now with
  | none =>
    refine State.inFlight_of_none fun i batch hi => ?_
    obtain ⟨sh, hn, _⟩ := h.exists_of_carries hi
    contradiction
  | some sh =>
    have mine := h.carries rfl
    exact State.inFlight_of_carries mine fun j batch hj => (h.carries_unique hj mine).1

end Accounts

/-- Every accepted event is delivered, dropped, queued or in flight. -/
theorem Made.accepted_eq {s₀ : State} (made : Made s₀) (actions : List Action) :
    (s₀.run actions).stats.accepted = (s₀.run actions).stats.eventsDelivered +
      (s₀.run actions).stats.eventsDropped + (s₀.run actions).queueLength +
        (s₀.run actions).inFlight.length := by
  obtain ⟨past, now, h⟩ := (made.audited actions).accounts
  have counted := made.counted actions
  have ht := tallied_add (tallies (s₀.run actions).books.tale)
  have hq : (s₀.run actions).books.queue.length = (s₀.run actions).queueLength := rfl
  have hn : (now.toList.map fun sh => sh.batch.size).sum = (s₀.run actions).inFlight.length := by
    rw [h.inFlight]
    cases now <;> rfl
  rw [counted.accepted, h.length_accepted, counted.delivered, counted.dropped, ← ht, hn, hq]
  omega

/-- Every offer is counted once, and every accepted event is accounted for: it is delivered,
dropped, queued or in flight, where the counters say how many batches and events the history tells
to be delivered and dropped. In flight is the batch that an activity carries, if one does, and this
is the only batch taken off the queue that is not counted; all earlier ones are counted once, in
order. -/
theorem events_are_conserved {s₀ : State} (made : Made s₀) (actions : List Action) :
    let s := s₀.run actions
    actions.countP Action.isOffer = s.stats.accepted + s.stats.rejected + s.stats.queueFull ∧
    s.stats.accepted =
      s.stats.eventsDelivered + s.stats.eventsDropped + s.queueLength + s.inFlight.length ∧
    (∀ i batch, s.Carries i batch → s.inFlight = batch.events) ∧
    ((∀ i batch, ¬ s.Carries i batch) → s.inFlight = []) ∧
    (drained s.history).map List.length = (tallies s.history).map Tally.events ++
      (if s.inFlight = [] then [] else [s.inFlight.length]) ∧
    s.stats.eventsDelivered = tallied true (tallies s.history) ∧
    s.stats.eventsDropped = tallied false (tallies s.history) ∧
    s.stats.batchesDelivered = talliedBatches true (tallies s.history) ∧
    s.stats.batchesDropped = talliedBatches false (tallies s.history) := by
  intro s
  obtain ⟨past, now, h⟩ : ∃ past now, Accounts s.books past now :=
    (made.audited actions).accounts
  have counted : Counted s.stats s.books.tale := made.counted actions
  have offers : s.stats.offers = s₀.stats.offers + actions.countP Action.isOffer :=
    s₀.offers_run actions
  have flight : s.inFlight = (now.map fun sh => sh.batch.events).getD [] := h.inFlight
  have hd := h.drained
  rw [drained_tale] at hd
  have htt := h.tallies
  rw [tallies_tale] at htt
  refine ⟨?_, made.accepted_eq actions, fun i batch hi => ?_, State.inFlight_of_none, ?_, ?_, ?_,
    ?_, ?_⟩
  · have h0 : s₀.stats.offers = 0 := by rw [made.untouched.stats]; rfl
    rw [h0, Nat.zero_add] at offers
    exact offers.symm
  · exact State.inFlight_of_carries hi fun j batch' hj => (h.carries_unique hj hi).1
  · rw [hd, htt, List.map_map, List.map_append, flight]
    cases now with
    | none => rfl
    | some sh =>
      have hne : (Option.map (fun sh : Shipment => sh.batch.events) (some sh)).getD [] ≠ [] :=
        (h.lawful_of_mem (List.mem_append_right past (List.mem_singleton_self sh))).nonempty
      rw [if_neg hne]
      rfl
  · rw [counted.delivered, tallies_tale]
  · rw [counted.dropped, tallies_tale]
  · rw [counted.batchesDelivered, tallies_tale]
  · rw [counted.batchesDropped, tallies_tale]

/-- While a collector stalls, two events are in flight, one is queued and one was refused. -/
theorem four_offers_are_conserved :
    let s := (small [⟨10, .success⟩]).run (offers 4 ++ [.flush, .poll 0])
    Made (small [⟨10, .success⟩]) ∧
    s.stats.accepted =
      s.stats.eventsDelivered + s.stats.eventsDropped + s.queueLength + s.inFlight.length ∧
    s.inFlight = [numbered 0, numbered 1] :=
  ⟨made_small _, (events_are_conserved (made_small [⟨10, .success⟩]) _).2.1, rfl⟩

end EventRelay.Publisher
