import EventRelay.Proofs.Publisher.Shipments

/-!
# What the counter of retries counts

A retry is counted when the second attempt is announced, which is before the delay that precedes the
attempt. A batch that is cut off in this delay is therefore counted as retried although it was
handed over only once. With nobody carrying a batch, the counter exceeds the number of second
attempts by the number of such batches.
-/

namespace EventRelay.Publisher

namespace Observation

/-- Whether a batch is handed over a second time. -/
def isSecond : Observation → Bool
  | .handed _ _ _ second => second
  | _ => false

/-- Whether an attempt is answered with a failure. -/
def isFailure : Observation → Bool
  | .answered _ _ (.failure _) => true
  | _ => false

/-- Whether a batch is dropped after its last attempt. -/
def isDrop : Observation → Bool
  | .notice (.dropped ..) => true
  | _ => false

end Observation

/-- What belongs to no delivery is not counted in one. -/
theorem Observation.uncounted {o : Observation} (h : o.delivery? = none) :
    o.isSecond = false ∧ o.isFailure = false ∧ o.isDrop = false := by
  cases o with
  | notice n => cases n <;> first | exact ⟨rfl, rfl, rfl⟩ | contradiction
  | offered => exact ⟨rfl, rfl, rfl⟩
  | loopStarted => exact ⟨rfl, rfl, rfl⟩
  | _ => contradiction

/-- The number of second attempts in a history. -/
def seconds (history : List Observation) : Nat := history.countP Observation.isSecond

/-- What is counted among deliveries alone can be counted in the whole history. -/
theorem countP_deliveries {p : Observation → Bool} (blind : ∀ o, o.delivery? = none → p o = false)
    (history : List Observation) : (deliveries history).countP p = history.countP p := by
  induction history with
  | nil => rfl
  | cons o older ih =>
    cases h : o.delivery? with
    | none =>
      have same : deliveries (o :: older) = deliveries older := reading_skip h
      rw [same, ih, List.countP_cons_of_neg (by rw [blind o h]; exact Bool.false_ne_true)]
    | some o' =>
      obtain rfl := Observation.eq_of_delivery h
      have grown : deliveries (o' :: older) = deliveries older ++ [o'] := reading_find h
      rw [grown, List.countP_append, ih, List.countP_singleton, List.countP_cons]

/-- Every failure is followed by the announcement of a second attempt or by the loss of the
batch. -/
def Books.Balanced (b : Books) : Prop :=
  b.tale.countP Observation.isFailure = b.stats.retries + b.tale.countP Observation.isDrop

namespace Books

variable {b b' : Books} {stats : Stats} {o : Observation}

/-- Telling of anything but failures and losses keeps the balance. -/
theorem Balanced.tell (h : b.Balanced) (tale : b'.tale = o :: b.tale)
    (retries : b'.stats.retries = b.stats.retries) (failure : o.isFailure = false)
    (drop : o.isDrop = false) : b'.Balanced := by
  unfold Balanced at h ⊢
  rw [tale, retries, List.countP_cons_of_neg (by rw [failure]; exact Bool.false_ne_true),
    List.countP_cons_of_neg (by rw [drop]; exact Bool.false_ne_true), h]

/-- A batch that meets its fate is dropped exactly if its last answer was a failure. -/
theorem Balanced.settle (h : b.Balanced) {fate : Fate} {answer : Option Ending}
    (follows : fate.Follows answer) {me : ActivityId} {time : Nat} {batch : Envelope}
    (tale : b'.tale = .notice (fate.notice batch) ::
      ((answer.map (.answered me time)).toList ++ b.tale))
    (retries : b'.stats.retries = b.stats.retries) : b'.Balanced := by
  unfold Balanced at h ⊢
  rw [tale, retries]
  cases follows with
  | delivered => exact h
  | dropped e =>
    have failures : List.countP Observation.isFailure (.notice ((Fate.dropped e).notice batch) ::
        .answered me time (.failure e) :: b.tale) = b.tale.countP Observation.isFailure + 1 := by
      rw [List.countP_cons_of_neg Bool.false_ne_true, List.countP_cons_of_pos rfl]
    have drops : List.countP Observation.isDrop (.notice ((Fate.dropped e).notice batch) ::
        .answered me time (.failure e) :: b.tale) = b.tale.countP Observation.isDrop + 1 := by
      rw [List.countP_cons_of_pos rfl, List.countP_cons_of_neg Bool.false_ne_true]
    exact failures.trans ((congrArg (· + 1) h).trans (congrArg (b.stats.retries + ·) drops).symm)
  | broken => exact h
  | cut => exact h

/-- Every entry keeps the balance. -/
theorem Step.balanced (step : b.Step b') (h : b.Balanced) : b'.Balanced := by
  cases step with
  | @offer e v _ => cases v <;> exact h.tell rfl rfl rfl rfl
  | work w =>
    cases w with
    | join => exact h
    | shift => exact h
    | @discard me _ _ _ events =>
      have taken : Balanced { b with tale := .drained me events :: b.tale } :=
        h.tell rfl rfl rfl rfl
      exact taken.tell rfl rfl rfl rfl
    | @ship me _ batch =>
      have taken : Balanced { b with tale := .drained me batch.events :: b.tale } :=
        h.tell rfl rfl rfl rfl
      exact taken.tell rfl rfl rfl rfl
    | retry =>
      unfold Balanced at h ⊢
      rw [List.countP_cons_of_pos rfl, List.countP_cons_of_neg Bool.false_ne_true, h]
      exact Nat.add_right_comm _ _ 1
    | resume => exact h.tell rfl rfl rfl rfl
    | @settle _ _ _ _ _ _ _ _ _ _ fate _ _ _ follows =>
      exact h.settle follows rfl (by cases fate <;> rfl)
    | forgo => exact h.tell rfl rfl rfl rfl

end Books

/-- In every reachable state each failure is accounted for. -/
theorem Made.balanced {s : State} (made : Made s) (actions : List Action) :
    (s.run actions).books.Balanced := by
  refine s.books_run_keeps Books.Step.balanced ?_ actions
  rw [Books.Balanced, made.books_tale, show s.books.stats = {} from made.untouched.stats]
  rfl

namespace Shipment

variable {sh : Shipment}

/-- Whether a batch was cut off after its first attempt had failed and before the second one. -/
def isForgone (sh : Shipment) : Bool :=
  match sh.first.answer, sh.second, sh.fate with
  | some (_, .failure _), none, some .abandoned => true
  | _, _, _ => false

/-- A shipment tells of a second attempt, once, if there was one. -/
theorem countP_isSecond_told (sh : Shipment) :
    sh.told.countP Observation.isSecond = if sh.second.isSome then 1 else 0 := by
  obtain ⟨actor, batch, ⟨begun, answer⟩, second, fate⟩ := sh
  cases answer <;> rcases second with _ | ⟨begun', _ | answer'⟩ <;> cases fate <;> rfl

/-- Of the failures of a counted batch each drops it, precedes its second attempt or precedes the
delay in which it was cut off. -/
theorem Lawful.balance {settings : Settings} (h : sh.Lawful settings) (counted : sh.fate ≠ none) :
    sh.told.countP Observation.isFailure = (if sh.second.isSome then 1 else 0) +
      (if sh.isForgone then 1 else 0) + sh.told.countP Observation.isDrop := by
  obtain ⟨actor, batch, ⟨begun, answer⟩, second, fate⟩ := sh
  cases fate with
  | none => exact absurd rfl counted
  | some f =>
    cases second with
    | none =>
      rcases h.settled f rfl with follows | ⟨rfl, _, time, e, failed⟩
      · have last : f.Follows (answer.map Prod.snd) := follows
        rcases answer with _ | ⟨time, result⟩ <;> cases last <;> rfl
      · obtain rfl : answer = some (time, .failure e) := failed
        rfl
    | some a =>
      obtain ⟨_, time, e, failed⟩ := h.retried (Option.some_ne_none a)
      obtain rfl : answer = some (time, .failure e) := failed
      rcases h.settled f rfl with follows | ⟨_, none, _⟩
      · obtain ⟨begun', answer'⟩ := a
        have last : f.Follows (answer'.map Prod.snd) := follows
        rcases answer' with _ | ⟨time', result⟩ <;> cases last <;> rfl
      · contradiction

end Shipment

section shipments

variable {shipments : List Shipment}

/-- Among shipments, second attempts are those of the shipments that have one. -/
theorem countP_isSecond_shipments (shipments : List Shipment) :
    (shipments.flatMap Shipment.told).countP Observation.isSecond =
      shipments.countP fun sh => sh.second.isSome := by
  induction shipments with
  | nil => rfl
  | cons sh rest ih =>
    rw [List.flatMap_cons, List.countP_append, ih, sh.countP_isSecond_told, List.countP_cons,
      Nat.add_comm]

/-- Among counted shipments, failures are balanced one by one. -/
theorem balance_shipments {settings : Settings}
    (lawful : ∀ sh ∈ shipments, sh.Lawful settings ∧ sh.fate ≠ none) :
    (shipments.flatMap Shipment.told).countP Observation.isFailure =
      shipments.countP (fun sh => sh.second.isSome) + shipments.countP Shipment.isForgone +
        (shipments.flatMap Shipment.told).countP Observation.isDrop := by
  induction shipments with
  | nil => rfl
  | cons sh rest ih =>
    obtain ⟨law, counted⟩ := lawful sh (List.mem_cons_self ..)
    have balance := law.balance counted
    have others := ih fun other ho => lawful other (List.mem_cons_of_mem _ ho)
    rw [List.flatMap_cons, List.countP_append, List.countP_append, List.countP_cons,
      List.countP_cons]
    omega

end shipments

/-- While no flush cycle has the turn, nobody carries a batch. -/
theorem Made.idle_of_free {s : State} (made : Made s) (actions : List Action)
    (free : (s.run actions).turn.holder = none) (i : ActivityId) (batch : Envelope) :
    ¬ (s.run actions).Carries i batch := by
  intro carries
  obtain ⟨c, hc, hb⟩ := State.carries_iff.mp carries
  have mine := (made.inLine actions).inside hc (Cycle.inside_of_batch hb)
  cases mine.symm.trans free

/-- While nobody carries a batch, the counter of retries is the number of second attempts and of the
batches that were cut off in the delay before theirs. So it is the number of second attempts
exactly if no batch was cut off there. -/
theorem retries_count_announcements {s₀ : State} (made : Made s₀) (actions : List Action)
    (idle : ∀ i batch, ¬ (s₀.run actions).Carries i batch) :
    let s := s₀.run actions
    ∃ shipments : List Shipment,
      deliveries s.history = shipments.flatMap Shipment.told ∧
      (∀ sh ∈ shipments, sh.Lawful s₀.settings ∧ sh.fate ≠ none) ∧
      seconds s.history = shipments.countP (fun sh => sh.second.isSome) ∧
      s.stats.retries = seconds s.history + shipments.countP Shipment.isForgone ∧
      (s.stats.retries = seconds s.history ↔ ∀ sh ∈ shipments, sh.isForgone = false) := by
  intro s
  obtain ⟨past, now, h⟩ : ∃ past now, Accounts s.books past now :=
    (made.audited actions).accounts
  have settled : now = none := by
    cases now with
    | none => rfl
    | some sh => exact absurd (h.carries rfl) (idle sh.actor sh.batch)
  subst settled
  have told : deliveries s.books.tale = past.flatMap Shipment.told := by
    rw [h.told, Option.toList_none, List.append_nil]
  have lawful : ∀ sh ∈ past, sh.Lawful s₀.settings ∧ sh.fate ≠ none := by
    intro sh hm
    refine ⟨?_, h.counted sh hm⟩
    rw [← s₀.settings_run actions]
    exact h.lawful sh hm
  have count {p : Observation → Bool} (blind : ∀ o, o.delivery? = none → p o = false) :
      s.history.countP p = (past.flatMap Shipment.told).countP p := by
    rw [← countP_deliveries blind, ← deliveries_tale, told]
  have second : seconds s.history = past.countP fun sh => sh.second.isSome :=
    (count fun _ ho => (Observation.uncounted ho).1).trans (countP_isSecond_shipments past)
  have balance : s.books.Balanced := made.balanced actions
  have retries : s.stats.retries = seconds s.history + past.countP Shipment.isForgone := by
    have failures := balance_shipments lawful
    rw [Books.Balanced, ← countP_deliveries fun _ ho => (Observation.uncounted ho).2.1,
      ← countP_deliveries fun _ ho => (Observation.uncounted ho).2.2, told, failures] at balance
    have same : s.books.stats.retries = s.stats.retries := rfl
    omega
  refine ⟨past, by rw [← deliveries_tale, told], lawful, second, retries, ?_⟩
  rw [retries, Nat.add_eq_left, List.countP_eq_zero]
  simp only [Bool.not_eq_true]

/-- A batch that is delivered by its second attempt is counted as one retry. -/
theorem delivered_retry_is_counted :
    let s₀ := small [⟨0, .failure (.status 503 "busy")⟩]
    let s := s₀.run (offers 2 ++ [.flush, .poll 0, .elapse 200, .poll 0])
    Made s₀ ∧ (∀ i batch, ¬ s.Carries i batch) ∧ s.stats.retries = 1 ∧ seconds s.history = 1 ∧
    ∃ shipments : List Shipment,
      deliveries s.history = shipments.flatMap Shipment.told ∧
      s.stats.retries = seconds s.history + shipments.countP Shipment.isForgone := by
  have made := made_small [⟨0, .failure (.status 503 "busy")⟩]
  have idle := made.idle_of_free (offers 2 ++ [.flush, .poll 0, .elapse 200, .poll 0]) rfl
  obtain ⟨shipments, told, _, _, retries, _⟩ := retries_count_announcements made _ idle
  exact ⟨made, idle, rfl, rfl, shipments, told, retries⟩

/-- A flush that is cut off in the delay before its second attempt leaves a retry counted and no
second attempt made. -/
theorem forgone_attempt_is_counted :
    let s₀ := small [⟨0, .failure (.status 503 "busy")⟩]
    let s := s₀.run (offers 2 ++ [.flush, .poll 0, .cancel 0])
    Made s₀ ∧ s.turn.holder = none ∧ (∀ i batch, ¬ s.Carries i batch) ∧
    s.stats.retries = 1 ∧ seconds s.history = 0 := by
  have made := made_small [⟨0, .failure (.status 503 "busy")⟩]
  exact ⟨made, rfl, made.idle_of_free _ rfl, rfl, rfl⟩

end EventRelay.Publisher
