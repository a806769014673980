import EventRelay.Proofs.Publisher.Books

/-!
# What a history tells

A history is read from its beginning: which events were accepted, which batches were taken off the
queue, how they were handed over and answered, and how each of them was counted. The queue can be
replayed from the history alone. None of these readings looks at an observation that tells nothing
of events and batches, so they agree on a history and on the tale in the books.
-/

namespace EventRelay.Publisher

/-- What a reading finds in a history, from its beginning. -/
def reading {α : Type} (read : Observation → Option α) (history : List Observation) : List α :=
  history.reverse.filterMap read

theorem reading_cons {α : Type} (read : Observation → Option α) (o : Observation)
    (older : List Observation) :
    reading read (o :: older) = reading read older ++ (read o).toList := by
  rw [reading, List.reverse_cons, List.filterMap_append]
  cases h : read o with
  | none => rw [List.filterMap_cons_none h]; rfl
  | some a => rw [List.filterMap_cons_some h]; rfl

/-- A reading passes over what it does not look for. -/
theorem reading_skip {α : Type} {read : Observation → Option α} {o : Observation}
    {older : List Observation} (h : read o = none) :
    reading read (o :: older) = reading read older := by
  rw [reading_cons, h]
  exact List.append_nil _

/-- A reading ends with what it finds last. -/
theorem reading_find {α : Type} {read : Observation → Option α} {o : Observation} {a : α}
    {older : List Observation} (h : read o = some a) :
    reading read (o :: older) = reading read older ++ [a] := by
  rw [reading_cons, h]
  rfl

/-- A reading that only looks at what tells of events and batches reads the tale alike. -/
theorem reading_filter {α : Type} {read : Observation → Option α}
    (blind : ∀ o, o.tells = false → read o = none) (history : List Observation) :
    reading read (history.filter Observation.tells) = reading read history := by
  induction history with
  | nil => rfl
  | cons o older ih =>
    cases h : o.tells with
    | true => rw [List.filter_cons_of_pos h, reading_cons, reading_cons, ih]
    | false =>
      rw [List.filter_cons_of_neg (by rw [h]; exact Bool.false_ne_true), ih]
      exact (reading_skip (blind o h)).symm

namespace Observation

/-- The event that was accepted. -/
def accepted? : Observation → Option Event
  | .offered e .accepted => some e
  | _ => none

/-- The events of the batch that was taken off the queue. -/
def drained? : Observation → Option (List Event)
  | .drained _ events => some events
  | _ => none

/-- What belongs to the delivery of a batch. -/
def delivery? : Observation → Option Observation
  | .offered .. => none
  | o => if o.tells then some o else none

end Observation

/-- How a batch was counted. -/
structure Tally where
  /-- The number of its events. -/
  events : Nat
  /-- Whether it was counted as delivered; otherwise it was counted as dropped. -/
  delivered : Bool
  deriving DecidableEq, Repr

/-- The count that a report announces. -/
def Observation.tally? : Observation → Option Tally
  | .notice (.delivered n) => some ⟨n, true⟩
  | .notice (.dropped _ n _) => some ⟨n, false⟩
  | .notice (.abandoned n _) => some ⟨n, false⟩
  | .notice (.noCollector n _) => some ⟨n, false⟩
  | _ => none

/-- The events that were accepted, in order. -/
def accepted (history : List Observation) : List Event := reading Observation.accepted? history

/-- The batches that were taken off the queue, in order. -/
def drained (history : List Observation) : List (List Event) :=
  reading Observation.drained? history

/-- What belongs to deliveries, in order. -/
def deliveries (history : List Observation) : List Observation :=
  reading Observation.delivery? history

/-- How the batches were counted, in order. -/
def tallies (history : List Observation) : List Tally := reading Observation.tally? history

/-- What belongs to a delivery is read as it stands. -/
theorem Observation.eq_of_delivery {o o' : Observation} (h : o.delivery? = some o') : o' = o := by
  unfold delivery? at h
  split at h
  · contradiction
  · split at h
    · exact (Option.some.inj h).symm
    · contradiction

/-- What belongs to deliveries stands in the history. -/
theorem mem_of_mem_deliveries {o : Observation} {history : List Observation}
    (h : o ∈ deliveries history) : o ∈ history := by
  obtain ⟨o', ho', hd⟩ := List.mem_filterMap.mp h
  rw [Observation.eq_of_delivery hd]
  exact List.mem_reverse.mp ho'

/-- A reading that only looks at what belongs to deliveries needs nothing but the deliveries. -/
theorem reading_deliveries {α : Type} {read : Observation → Option α}
    (blind : ∀ o, o.delivery? = none → read o = none) (history : List Observation) :
    reading read history = (deliveries history).filterMap read := by
  induction history with
  | nil => rfl
  | cons o older ih =>
    cases h : o.delivery? with
    | none =>
      have hd : deliveries (o :: older) = deliveries older := reading_skip h
      rw [reading_skip (blind o h), hd, ih]
    | some o' =>
      obtain rfl := Observation.eq_of_delivery h
      have hd : deliveries (o' :: older) = deliveries older ++ [o'] := reading_find h
      rw [hd, List.filterMap_append, reading_cons, ih]
      cases hr : read o' with
      | none => rw [List.filterMap_cons_none hr]; rfl
      | some a => rw [List.filterMap_cons_some hr]; rfl

/-- Taking a batch off the queue belongs to its delivery. -/
theorem Observation.drained_of_delivery {o : Observation} (h : o.delivery? = none) :
    o.drained? = none := by
  unfold drained?
  split
  · contradiction
  · rfl

/-- What an observation tells of the queue. -/
def Observation.requeue (queue : List Event) : Observation → List Event
  | .offered e .accepted => queue ++ [e]
  | .drained _ events => queue.drop events.length
  | _ => queue

/-- The queue that a history leads to. -/
def backlog (history : List Observation) : List Event :=
  history.foldr (fun o queue => o.requeue queue) []

section tale

variable (s : State)

theorem accepted_tale : accepted s.books.tale = accepted s.history :=
  reading_filter (fun o h => by unfold Observation.accepted?; split <;> trivial) _

theorem drained_tale : drained s.books.tale = drained s.history :=
  reading_filter (fun o h => by unfold Observation.drained?; split <;> trivial) _

theorem deliveries_tale : deliveries s.books.tale = deliveries s.history := by
  refine reading_filter (fun o h => ?_) _
  unfold Observation.delivery?
  split
  · rfl
  · rw [h]
    rfl

theorem tallies_tale : tallies s.books.tale = tallies s.history :=
  reading_filter (fun o h => by unfold Observation.tally?; split <;> trivial) _

/-- The replayed queue is the same for the tale. -/
theorem backlog_filter (history : List Observation) :
    backlog (history.filter Observation.tells) = backlog history := by
  induction history with
  | nil => rfl
  | cons o older ih =>
    cases h : o.tells with
    | true =>
      rw [List.filter_cons_of_pos h]
      exact congrArg (fun queue => o.requeue queue) ih
    | false =>
      rw [List.filter_cons_of_neg (by rw [h]; exact Bool.false_ne_true), ih]
      change backlog older = o.requeue (backlog older)
      unfold Observation.requeue
      split <;> trivial

end tale

end EventRelay.Publisher
