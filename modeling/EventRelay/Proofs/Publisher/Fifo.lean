import EventRelay.Proofs.Publisher.Entries
import EventRelay.Proofs.Publisher.History

/-!
# First in, first out

The accepted events, in the order of their acceptance, are the batches taken off the queue, one
after the other, followed by what is queued. The queue never outgrows its capacity, every batch is a
full one unless the queue held less, and nothing that was taken comes back.
-/

namespace EventRelay.Publisher

open Relation

/-- The queue is what the tale says, and the tale is in order. -/
structure Replayed (b : Books) : Prop where
  /-- The queue can be replayed. -/
  queue : b.queue = backlog b.tale
  /-- Nothing is lost, reordered or doubled. -/
  whole : accepted b.tale = (drained b.tale).flatten ++ b.queue
  /-- The queue has a capacity. -/
  bound : b.queue.length ≤ b.settings.maxQueueSize.value
  /-- A batch is the front of the queue at its time. -/
  fronts : ∀ {i events older}, .drained i events :: older <:+ b.tale →
    events = (backlog older).take b.settings.batchSize.value ∧ backlog older ≠ []
  /-- Only an enabled publisher with a way to the collector queues anything. -/
  live : b.queue ≠ [] → b.settings.enabled = true ∧ b.supplied = true

namespace Replayed

variable {b b' : Books}

/-- In a new publisher nothing has happened to the queue. -/
theorem start {b : Books} (queue : b.queue = []) (tale : b.tale = []) : Replayed b where
  queue := by rw [queue, tale]; rfl
  whole := by rw [queue, tale]; rfl
  bound := by rw [queue]; exact Nat.zero_le _
  fronts := by
    intro i events older hs
    rw [tale] at hs
    exact absurd (List.suffix_nil.mp hs) (List.cons_ne_nil _ _)
  live := fun hq => absurd queue hq

private theorem fronts_cons {o : Observation} (h : Replayed b) (ho : o.drained? = none)
    {i : ActivityId} {events : List Event} {older : List Observation}
    (hs : .drained i events :: older <:+ o :: b.tale) :
    events = (backlog older).take b.settings.batchSize.value ∧ backlog older ≠ [] := by
  rcases List.suffix_cons_iff.mp hs with he | hs
  · obtain ⟨rfl, _⟩ := List.cons.inj he
    contradiction
  · exact h.fronts hs

/-- Telling of anything but the queue keeps the queue and its tale in step. -/
theorem tell {o : Observation} (h : Replayed b) (queue : b'.queue = b.queue)
    (tale : b'.tale = o :: b.tale) (settings : b'.settings = b.settings)
    (supplied : b'.supplied = b.supplied) (ha : o.accepted? = none) (hd : o.drained? = none)
    (hr : o.requeue b.queue = b.queue) : Replayed b' where
  queue := by
    rw [queue, tale]
    change b.queue = o.requeue (backlog b.tale)
    rw [← h.queue, hr]
  whole := by
    have hat : accepted (o :: b.tale) = accepted b.tale := reading_skip ha
    have hdt : drained (o :: b.tale) = drained b.tale := reading_skip hd
    rw [queue, tale, hat, hdt]
    exact h.whole
  bound := by
    rw [queue, settings]
    exact h.bound
  fronts := by
    intro i events older hs
    rw [tale] at hs
    rw [settings]
    exact h.fronts_cons hd hs
  live := by
    rw [queue, settings, supplied]
    exact h.live

private theorem drop_length_take (queue : List Event) (size : Nat) :
    queue.drop (queue.take size).length = queue.drop size := by
  rw [List.length_take]
  rcases Nat.le_total size queue.length with h | h
  · rw [Nat.min_eq_left h]
  · rw [Nat.min_eq_right h, List.drop_length, List.drop_of_length_le h]

/-- Taking a batch off the queue keeps the queue and its tale in step. -/
theorem drain (h : Replayed b) (queued : b.queue ≠ []) (me : ActivityId) :
    Replayed { b with
      queue := b.queue.drop b.settings.batchSize.value
      tale := .drained me (b.queue.take b.settings.batchSize.value) :: b.tale } where
  queue := by
    change _ = (backlog b.tale).drop _
    rw [← h.queue, drop_length_take]
  whole := by
    have hd : drained (.drained me (b.queue.take b.settings.batchSize.value) :: b.tale) =
        drained b.tale ++ [b.queue.take b.settings.batchSize.value] := reading_find rfl
    have ha : accepted (.drained me (b.queue.take b.settings.batchSize.value) :: b.tale) =
        accepted b.tale := reading_skip rfl
    rw [hd, ha, h.whole, List.flatten_append, List.flatten_singleton, List.append_assoc,
      List.take_append_drop]
  bound := by
    rw [List.length_drop]
    exact Nat.le_trans (Nat.sub_le _ _) h.bound
  fronts := by
    intro i events older hs
    rcases List.suffix_cons_iff.mp hs with he | hs
    · obtain ⟨hf, rfl⟩ := List.cons.inj he
      obtain ⟨_, rfl⟩ := Observation.drained.inj hf
      exact ⟨congrArg (List.take _) h.queue, fun hn => queued (h.queue.trans hn)⟩
    · exact h.fronts hs
  live := fun _ => h.live queued

/-- Offering an event keeps the queue and its tale in step. -/
theorem offer (h : Replayed b) {e : Event} {v : Verdict} (allowed : b.Allows v) :
    Replayed (b.offer e v) := by
  cases v with
  | rejected => exact h.tell rfl rfl rfl rfl rfl rfl rfl
  | full => exact h.tell rfl rfl rfl rfl rfl rfl rfl
  | accepted =>
    obtain ⟨enabled, supplied, room⟩ := allowed
    refine ⟨congrArg (· ++ [e]) h.queue, ?_, ?_, h.fronts_cons rfl, fun _ => ⟨enabled, supplied⟩⟩
    · have ha : accepted (.offered e .accepted :: b.tale) = accepted b.tale ++ [e] :=
        reading_find rfl
      have hd : drained (.offered e .accepted :: b.tale) = drained b.tale :=
        reading_skip rfl
      change accepted (.offered e .accepted :: b.tale) =
        (drained (.offered e .accepted :: b.tale)).flatten ++ (b.queue ++ [e])
      rw [ha, hd, h.whole, List.append_assoc]
    · change (b.queue ++ [e]).length ≤ _
      rw [List.length_append]
      exact room

end Replayed

/-- Every entry keeps the queue and its tale in step. -/
theorem Books.Step.replayed {b b' : Books} (step : b.Step b') (h : Replayed b) : Replayed b' := by
  cases step with
  | offer allowed => exact h.offer allowed
  | work w =>
    cases w with
    | join => exact ⟨h.queue, h.whole, h.bound, h.fronts, h.live⟩
    | shift => exact ⟨h.queue, h.whole, h.bound, h.fronts, h.live⟩
    | @discard me r r' c' events sample entry role after unsupplied queued taken =>
      subst taken
      exact (h.drain queued me).tell rfl rfl rfl rfl rfl rfl rfl
    | @ship me r batch time response entry queued events =>
      rw [events]
      exact (h.drain queued me).tell rfl rfl rfl rfl rfl rfl rfl
    | retry => exact h.tell rfl rfl rfl rfl rfl rfl rfl
    | resume => exact h.tell rfl rfl rfl rfl rfl rfl rfl
    | @settle me r r' c' batch second begun time response answer fate =>
      cases answer with
      | none => cases fate <;> exact h.tell rfl rfl rfl rfl rfl rfl rfl
      | some result =>
        have ha : Replayed { b with tale := .answered me time result :: b.tale } :=
          h.tell rfl rfl rfl rfl rfl rfl rfl
        cases fate <;> exact ha.tell rfl rfl rfl rfl rfl rfl rfl
    | forgo => exact h.tell rfl rfl rfl rfl rfl rfl rfl

/-- In every reachable state the queue is what the tale says. -/
theorem Made.replayed {s : State} (made : Made s) (actions : List Action) :
    Replayed (s.run actions).books :=
  s.books_run_keeps Books.Step.replayed (.start made.untouched.queue made.books_tale) actions

/-- No entry changes the settings. -/
theorem Books.Step.settings {b b' : Books} (step : b.Step b') : b'.settings = b.settings := by
  cases step with
  | @offer e v _ => cases v <;> rfl
  | work w => cases w <;> rfl

/-- The settings of a publisher never change. -/
theorem State.settings_run (s : State) (actions : List Action) :
    (s.run actions).settings = s.settings :=
  s.books_run_keeps (P := fun b => b.settings = s.settings)
    (fun step hb => step.settings.trans hb) rfl actions

/-- Activities accept nothing. -/
theorem Books.Work.accepted_tale {b b' : Books} (w : b.Work b') :
    accepted b'.tale = accepted b.tale := by
  have skip {o : Observation} {older : List Observation} (h : o.accepted? = none) :
      accepted (o :: older) = accepted older := reading_skip h
  cases w with
  | join => rfl
  | shift => rfl
  | discard => exact (skip rfl).trans (skip rfl)
  | ship => exact (skip rfl).trans (skip rfl)
  | retry => exact skip rfl
  | resume => exact skip rfl
  | @settle me r r' c' batch second begun time response answer fate =>
    cases answer with
    | none => exact skip rfl
    | some result => exact (skip rfl).trans (skip rfl)
  | forgo => exact skip rfl

/-- Activities add nothing to the queue: they take batches off its front. -/
theorem Books.Work.queue_suffix {b b' : Books} (w : b.Work b') : b'.queue <:+ b.queue := by
  cases w with
  | join => exact List.suffix_rfl
  | shift => exact List.suffix_rfl
  | discard => exact List.drop_suffix _ _
  | ship => exact List.drop_suffix _ _
  | retry => exact List.suffix_rfl
  | resume => exact List.suffix_rfl
  | settle => exact List.suffix_rfl
  | forgo => exact List.suffix_rfl

namespace State

/-- An offer is answered with `true` exactly if its event is put into the queue. -/
theorem books_offer (s : State) (e : Event) :
    ((s.offer e).2 = true ∧ (s.offer e).1.books = s.books.offer e .accepted) ∨
      ((s.offer e).2 = false ∧ ∃ v, v ≠ .accepted ∧ (s.offer e).1.books = s.books.offer e v) := by
  unfold offer
  split
  · exact .inr ⟨rfl, .rejected, by decide, rfl⟩
  · split
    · refine .inl ⟨rfl, ?_⟩
      dsimp only
      split <;> rfl
    · exact .inr ⟨rfl, .full, by decide, rfl⟩

/-- Only an offer reports an acceptance. -/
theorem answer_of_ne_offer (s : State) {a : Action} (h : ∀ e, a ≠ .offer e) : s.answer a = [] := by
  cases a with
  | offer e => exact absurd rfl (h e)
  | _ => rfl

/-- An action accepts the events whose acceptance it reports. -/
theorem accepted_apply (s : State) (a : Action) :
    accepted (s.apply a).books.tale = accepted s.books.tale ++ s.answer a := by
  rcases a.offer_or with ⟨e, rfl⟩ | other
  · rw [apply, answer]
    rcases s.books_offer e with ⟨yes, hb⟩ | ⟨no, v, hv, hb⟩
    · rw [yes, hb, if_pos rfl]
      exact reading_find rfl
    · rw [no, hb, if_neg Bool.false_ne_true]
      cases v with
      | accepted => contradiction
      | rejected => exact (reading_skip rfl).trans (List.append_nil _).symm
      | full => exact (reading_skip rfl).trans (List.append_nil _).symm
  · rw [s.answer_of_ne_offer other, List.append_nil]
    exact s.apply_keeps (P := fun b => accepted b.tale = accepted s.books.tale)
      (fun w hb => w.accepted_tale.trans hb) rfl other

/-- A run accepts the events whose acceptance it reports. -/
theorem accepted_run (s : State) (actions : List Action) :
    accepted (s.run actions).books.tale = accepted s.books.tale ++ s.taken actions := by
  induction actions generalizing s with
  | nil => exact (List.append_nil _).symm
  | cons a rest ih => rw [run_cons, ih, accepted_apply, taken, List.append_assoc]

/-- The queue after an action holds what was queued before and what the action accepted. -/
theorem queue_apply_suffix (s : State) (a : Action) :
    (s.apply a).queue <:+ s.queue ++ s.answer a := by
  rcases a.offer_or with ⟨e, rfl⟩ | other
  · rw [apply, answer]
    rcases s.books_offer e with ⟨yes, hb⟩ | ⟨no, v, hv, hb⟩
    · rw [yes, if_pos rfl, show (s.offer e).1.queue = _ from congrArg Books.queue hb]
      exact List.suffix_rfl
    · rw [no, if_neg Bool.false_ne_true, List.append_nil,
        show (s.offer e).1.queue = _ from congrArg Books.queue hb]
      cases v with
      | accepted => contradiction
      | rejected => exact List.suffix_rfl
      | full => exact List.suffix_rfl
  · rw [s.answer_of_ne_offer other, List.append_nil]
    exact s.apply_keeps (P := fun b => b.queue <:+ s.queue) (fun w hb => w.queue_suffix.trans hb)
      List.suffix_rfl other

/-- The queue after a run holds what was queued before and what the run accepted, in order. -/
theorem queue_run_suffix (s : State) (actions : List Action) :
    (s.run actions).queue <:+ s.queue ++ s.taken actions := by
  induction actions generalizing s with
  | nil =>
    exact ⟨[], (List.append_nil _).symm⟩
  | cons a rest ih =>
    obtain ⟨front, hf⟩ := s.queue_apply_suffix a
    rw [run_cons, taken, ← List.append_assoc, ← hf, List.append_assoc]
    exact (ih _).trans (List.suffix_append _ _)

/-- An open, enabled publisher refuses an event exactly if its queue is full. -/
theorem offer_eq_false_iff {s : State} (enabled : s.enabled = true) (opened : s.closed = false)
    (e : Event) : (s.offer e).2 = false ↔ s.settings.maxQueueSize.value ≤ s.queue.length := by
  unfold offer
  rw [enabled, opened, Bool.not_true, Bool.or_false, if_neg Bool.false_ne_true]
  split
  · next room => exact iff_of_false (fun h => by contradiction) (Nat.not_le_of_lt room)
  · next full => exact iff_of_true rfl (Nat.le_of_not_lt full)

end State

/-- A batch in the history is the front of the queue at its time. -/
theorem Replayed.front_of_history {s : State} (h : Replayed s.books) {i : ActivityId}
    {events : List Event} {older : List Observation}
    (hs : .drained i events :: older <:+ s.history) :
    events = (backlog older).take s.settings.batchSize.value ∧ backlog older ≠ [] := by
  rw [← backlog_filter older]
  refine h.fronts (i := i) ?_
  have ht := hs.filter Observation.tells
  rwa [List.filter_cons_of_pos rfl] at ht

/-- The history tells of the acceptance of the events that a run accepts. -/
theorem Made.accepted_tale {s₀ : State} (made : Made s₀) (actions : List Action) :
    accepted (s₀.run actions).books.tale = s₀.taken actions := by
  rw [State.accepted_run, made.books_tale]
  rfl

/-- Every event of which an offer was answered with `true` leaves the queue once, in order: the
batches taken so far, one after the other, followed by the queue, are the events taken in. A batch
is as long as it can be at its time, the queue never outgrows its capacity and is full whenever an
open, enabled publisher refuses an event, and nothing comes back into the queue. -/
theorem accepted_events_leave_in_order {s₀ : State} (made : Made s₀) (actions : List Action) :
    let s := s₀.run actions
    s₀.taken actions = (drained s.history).flatten ++ s.queue ∧
    s.queue = backlog s.history ∧
    (∀ {i events older}, .drained i events :: older <:+ s.history →
      events ≠ [] ∧ events = (backlog older).take s₀.settings.batchSize.value ∧
        events.length = min s₀.settings.batchSize.value (backlog older).length) ∧
    s.queueLength ≤ s₀.settings.maxQueueSize.value ∧
    (s.enabled = true → s.closed = false → ∀ e, (s.offer e).2 = false →
      s.queueLength = s₀.settings.maxQueueSize.value) ∧
    ∀ later, (s.run later).queue <:+ s.queue ++ s.taken later := by
  intro s
  have h : Replayed s.books := made.replayed actions
  have hs : s.settings = s₀.settings := s₀.settings_run actions
  have whole : s₀.taken actions = (drained s.history).flatten ++ s.queue := by
    rw [← made.accepted_tale, ← drained_tale]
    exact h.whole
  have replay : s.queue = backlog s.history := by
    rw [← backlog_filter]
    exact h.queue
  have bound : s.queue.length ≤ s₀.settings.maxQueueSize.value := by
    rw [← hs]
    exact h.bound
  refine ⟨whole, replay, fun {i events older} hd => ?_, bound, fun enabled opened e refused => ?_,
    fun later => s.queue_run_suffix later⟩
  · obtain ⟨front, nonempty⟩ := h.front_of_history hd
    rw [hs] at front
    have hl : events.length = min s₀.settings.batchSize.value (backlog older).length := by
      rw [front, List.length_take]
    refine ⟨fun he => nonempty ?_, front, hl⟩
    have hpos := s₀.settings.batchSize.pos
    rw [he, List.length_nil] at hl
    exact List.length_eq_zero_iff.mp (by omega)
  · have full := (State.offer_eq_false_iff enabled opened e).mp refused
    rw [hs] at full
    exact Nat.le_antisymm bound full

/-- Of four events a queue of three refuses the last; a flush then takes the oldest two. -/
theorem three_of_four_events_leave_in_order :
    Made (small []) ∧
    (small []).taken (offers 4 ++ [.flush, .poll 0]) =
      (drained ((small []).run (offers 4 ++ [.flush, .poll 0])).history).flatten ++
        ((small []).run (offers 4 ++ [.flush, .poll 0])).queue ∧
    ((small []).run (offers 4 ++ [.flush, .poll 0])).queue = [numbered 2] :=
  ⟨made_small [], (accepted_events_leave_in_order (made_small []) _).1, rfl⟩

end EventRelay.Publisher
