import EventRelay.Proofs.Publisher.Finality
import EventRelay.Publisher.Completion

/-!
# Safeguards that are never needed

Some branches of a publisher guard against states that cannot come about: a batch is taken and there
is no way to the collector, a start finds that the phase does not allow it, a shutdown that is about
to return finds that the phase has moved on, the loop runs with an interval of zero. What rules
these states out is spread over the whole publisher: only one that is enabled and has a way to the
collector queues anything, a shutdown in progress keeps the phase where it is, and settings are
checked before a publisher is made. A publisher that is disabled or has no way to the collector
never gets anything to do.
-/

namespace EventRelay.Settings

/-- Settings that pass the check have an interval. -/
theorem flushInterval_of_validate {s : Settings} (checked : s.validate = .ok ()) :
    0 < s.flushInterval := by
  unfold validate at checked
  split at checked
  · contradiction
  · next positive => exact Nat.pos_of_ne_zero positive

end EventRelay.Settings

namespace EventRelay.Publisher

open Relation

/-- However a publisher is made, its settings pass the check. -/
theorem Made.checked {s : State} (made : Made s) : s.settings.validate = .ok () := by
  cases made with
  | create h =>
    unfold EventRelay.Publisher.create at h
    split at h
    · contradiction
    · next checked =>
      cases h
      exact checked
  | ofSettings h =>
    unfold EventRelay.Publisher.ofSettings at h
    split at h
    · contradiction
    · next checked =>
      split at h
      · cases h
        exact checked
      · split at h
        · contradiction
        · cases h
          exact checked
  | disabled => decide +kernel

namespace Books

variable {b b' : Books}

/-- Nobody ever took a batch off the queue without a way to the collector. -/
def Unstranded (b : Books) : Prop :=
  ∀ count sample, .notice (.noCollector count sample) ∉ b.tale

/-- Whoever finds something queued finds a way to the collector. -/
theorem Step.unstranded (step : b.Step b') (replayed : Replayed b) (h : b.Unstranded) :
    b'.Unstranded := by
  intro count sample
  have before := h count sample
  cases step with
  | @offer e v allowed => cases v <;> simpa [Books.offer] using before
  | work w =>
    cases w with
    | discard entry role after unsupplied queued =>
      -- Nothing could be queued, so there is no batch to take.
      cases unsupplied.symm.trans (replayed.live queued).2
    | @settle me r r' c' batch second begun time response answer fate =>
      cases fate <;> simpa [Fate.notice] using before
    | forgo => simpa [Fate.notice] using before
    | _ => simpa [put] using before

/-- No entry takes the way to the collector away or builds one. -/
theorem Step.supplied (step : b.Step b') : b'.supplied = b.supplied := by
  cases step with
  | @offer e v allowed => cases v <;> rfl
  | work w => cases w <;> rfl

/-- Where nothing can be delivered, nothing is queued or in flight, and nothing ever was. -/
structure Barred (b : Books) : Prop where
  /-- Publishing is disabled, or there is no way to the collector. -/
  off : b.settings.enabled = false ∨ b.supplied = false
  /-- Nothing is queued. -/
  queue : b.queue = []
  /-- Nobody carries a batch. -/
  idle : Carried b.settings b.posts none
  /-- Nothing was ever taken off the queue, handed over or counted. -/
  deliveries : deliveries b.tale = []

/-- Since no offer is accepted, activities find nothing to do. -/
theorem Step.barred (step : b.Step b') (h : b.Barred) : b'.Barred := by
  have off : b'.settings.enabled = false ∨ b'.supplied = false := by
    rw [step.settings, step.supplied]
    exact h.off
  cases step with
  | @offer e v allowed =>
    have untold (v : Verdict) : Publisher.deliveries (.offered e v :: b.tale) = [] :=
      (reading_skip rfl).trans h.deliveries
    cases v with
    | accepted =>
      obtain ⟨enabled, supplied, -⟩ := allowed
      rcases h.off with disabled | unsupplied
      · cases disabled.symm.trans enabled
      · cases unsupplied.symm.trans supplied
    | rejected => exact ⟨off, h.queue, h.idle, untold .rejected⟩
    | full => exact ⟨off, h.queue, h.idle, untold .full⟩
  | work w =>
    obtain ⟨queue, tale, -, idle⟩ := w.still h.queue h.idle
    exact ⟨off, queue, idle, tale ▸ h.deliveries⟩

end Books

/-- Only a start makes a publisher run; no activity does. -/
theorem Lifecycle.Move.running {l l' : Lifecycle} {me : ActivityId} (move : Move me l l')
    (running : l'.phase = .running) : l.phase = .running := by
  cases move with
  | leave => exact running
  | stop => contradiction
  | joined => exact running
  | finish =>
    change (l.phase.next? .finish).getD l.phase = .running at running
    cases before : l.phase with
    | running => rfl
    | stopped => rw [before] at running; contradiction
    | stopping => rw [before] at running; contradiction

namespace State

variable {s t : State} {me : ActivityId}

/-- Nobody ever took a batch off the queue without a way to the collector, as the history shows. -/
theorem noCollector_notMem (h : s.books.Unstranded) (count : Nat) (sample : List EventId) :
    .notice (.noCollector count sample) ∉ s.history :=
  fun told => h count sample (List.mem_filter.mpr ⟨told, rfl⟩)

/-- Where something can run the loop, every start is answered without an error. -/
theorem start_true_ok (s : State) : (s.start true).2 = .ok () := by
  unfold start
  split
  · rfl
  · split
    · rfl
    · rw [Bool.not_true, if_neg Bool.false_ne_true]
      cases phase : s.phase with
      | running => rfl
      | stopping => rfl
      | stopped =>
        rw [move?, phase]
        rfl

/-- A shutdown that finds the queue empty finds the phase in which it can finish. -/
theorem finish_of_empty (sound : s.lifecycle.Sound) {c : Cycle} {sent lost : Nat}
    (ha : s.activity? me = some (.shutdown (.flushing c sent lost)))
    (empty : c.step s me false = .ends t .empty) :
    t.move? .finish =
      some { t.report (.moved .stopping .stopped .finish) with phase := .stopped } := by
  have same : t.lifecycle = s.lifecycle := Cycle.lifecycle_of_step empty
  have phase : t.phase = .stopping :=
    (congrArg Lifecycle.phase same).trans (sound.awaited (part_of_activity ha)).1
  rw [move?, phase]
  rfl

/-- A publisher that can deliver nothing is enabled only in name. -/
theorem enabled_of_barred (h : s.books.Barred) : s.enabled = false := by
  rw [enabled]
  rcases h.off with disabled | unsupplied
  · rw [show s.settings.enabled = false from disabled, Bool.false_and]
  · rw [show s.transport.isSome = false from unsupplied, Bool.and_false]

/-- A publisher that can deliver nothing has made no attempt. -/
theorem handed_of_barred (h : s.books.Barred) : s.handed = [] := by
  refine List.filterMap_eq_nil_iff.mpr fun o told => ?_
  cases o with
  | handed i time batch second =>
    have nothing : deliveries s.history = [] := (deliveries_tale s).symm.trans h.deliveries
    have delivered : .handed i time batch second ∈ deliveries s.history :=
      List.mem_filterMap.mpr ⟨_, told, rfl⟩
    rw [nothing] at delivered
    contradiction
  | _ => rfl

/-- Whatever happens, a publisher that can deliver nothing stays so and does not run. -/
theorem barred_of_acts (act : Acts s t) (barred : s.books.Barred) (halted : s.phase ≠ .running) :
    t.books.Barred ∧ t.phase ≠ .running := by
  constructor
  · rcases (reflGen_iff _ _ _).mp (work_of_acts act) with same | w
    · rw [same]
      exact barred
    · exact (Books.Step.work w).barred barred
  · have moved {i : ActivityId} {u : State}
        (move : ReflGen (Lifecycle.Move i) s.lifecycle u.lifecycle) : u.phase ≠ .running := by
      rcases (reflGen_iff _ _ _).mp move with same | move
      · rw [show u.phase = s.phase from congrArg Lifecycle.phase same]
        exact halted
      · exact fun running => halted (move.running running)
    cases act with
    | start runtime =>
      rw [start, enabled_of_barred barred, Bool.not_false, if_pos rfl]
      exact halted
    | callFlush => exact halted
    | callShutdown => exact halted
    | step step => exact moved (move_of_step step)
    | @cancel i own => exact moved (s.move_of_cancel i)
    | elapse millis => exact halted

end State

/-- A publisher that is disabled or has no way to the collector never gets anything to do. -/
theorem Made.barred {s₀ : State} (made : Made s₀)
    (off : s₀.settings.enabled = false ∨ s₀.transport = none) (actions : List Action) :
    (s₀.run actions).books.Barred ∧ (s₀.run actions).phase ≠ .running := by
  have start : s₀.books.Barred := by
    refine ⟨off.imp_right fun unsupplied => ?_, made.untouched.queue, ?_, ?_⟩
    · change s₀.transport.isSome = false
      rw [unsupplied, Option.isSome_none]
    · rw [made.books_posts]
      exact .nil
    · rw [made.books_tale]
      rfl
  have halted : s₀.phase ≠ .running := by
    rw [made.untouched.phase]
    decide
  refine State.run_keeps (P := fun s => s.books.Barred ∧ s.phase ≠ .running)
    (fun {s} e h => ⟨(s.step_of_offer e).barred h.1, ?_⟩)
    (fun act h => State.barred_of_acts act h.1 h.2) ⟨start, halted⟩ actions
  rw [show (s.offer e).1.phase = s.phase from congrArg Lifecycle.phase (s.lifecycle_offer e)]
  exact h.2

/-- A publisher that can deliver nothing has accepted nothing. -/
theorem Made.accepted_of_barred {s₀ : State} (made : Made s₀) {actions : List Action}
    (barred : (s₀.run actions).books.Barred) : (s₀.run actions).stats.accepted = 0 := by
  have whole := (made.replayed actions).whole
  rw [barred.queue, List.append_nil, drained,
    reading_deliveries fun _ => Observation.drained_of_delivery, barred.deliveries] at whole
  exact (made.counted actions).accepted.trans (congrArg List.length whole)

/-- Nobody ever finds a batch without a way to the collector. -/
theorem Made.unstranded {s₀ : State} (made : Made s₀) (actions : List Action) :
    (s₀.run actions).books.Unstranded := by
  refine (s₀.books_run_keeps (P := fun b => Replayed b ∧ b.Unstranded)
    (fun step h => ⟨step.replayed h.1, step.unstranded h.1 h.2⟩) ⟨made.replayed [], ?_⟩ actions).2
  intro count sample
  rw [made.books_tale]
  exact List.not_mem_nil

/-- At every moment of every run of a publisher, however it was made: whoever finds something queued
finds a way to the collector, and no batch was ever dropped for want of one; where something can run
the loop a start is answered without an error; a shutdown whose flush finds the queue empty makes
the transition that finishes it; and the loop, whenever it is started, has an interval to wait. If
the publisher is disabled or was made without a way to the collector then nothing is queued, no
attempt was ever made and the publisher is not running. -/
theorem safeguards_are_never_needed {s₀ : State} (made : Made s₀) (actions : List Action) {s : State}
    (moment : s ∈ s₀.moments actions) :
    (s.queue ≠ [] → s.transport ≠ none) ∧
    (∀ count sample, .notice (.noCollector count sample) ∉ s.history) ∧
    (s.start true).2 = .ok () ∧
    (∀ me c sent lost t, s.activity? me = some (.shutdown (.flushing c sent lost)) →
      c.step s me false = .ends t .empty →
      t.move? .finish =
        some { t.report (.moved .stopping .stopped .finish) with phase := .stopped }) ∧
    0 < s.settings.flushInterval ∧
    (s₀.settings.enabled = false ∨ s₀.transport = none →
      s.queue = [] ∧ s.handed = [] ∧ s.phase ≠ .running) := by
  obtain ⟨before, _, rfl, _⟩ := State.exists_of_mem_moments moment
  refine ⟨fun queued => ?_, State.noCollector_notMem (made.unstranded before),
    State.start_true_ok _, fun me c sent lost t ha empty =>
      State.finish_of_empty (made.sound before) ha empty, ?_, fun off => ?_⟩
  · have supplied := ((made.replayed before).live queued).2
    exact Option.isSome_iff_ne_none.mp supplied
  · rw [s₀.settings_run]
    exact Settings.flushInterval_of_validate made.checked
  · obtain ⟨barred, halted⟩ := made.barred off before
    exact ⟨barred.queue, State.handed_of_barred barred, halted⟩

/-- A shutdown of a publisher without a loop is about to look at the queue. -/
def shutdownThenLook : List Action := [.shutdown, .step 0, .step 0]

/-- A publisher that refuses every event is offered some, started and flushed. -/
def tryEverything : List Action := offers 2 ++ [.start true, .flush, .poll 0]

/-- A shutdown that finds the queue empty finishes, and a publisher that refuses every event stays
empty and does not run, whatever is tried. -/
theorem empty_shutdown_finishes_and_disabled_publisher_rests :
    let s := (small []).run shutdownThenLook
    Made (small []) ∧ s ∈ (small []).moments shutdownThenLook ∧
      s.activity? 0 = some (.shutdown (.flushing .admitted 0 0)) ∧
      (∃ t, Cycle.admitted.step s 0 false = .ends t .empty ∧
        ∃ u, t.move? .finish = some u ∧ u.phase = .stopped) ∧
      let d := disabled.run tryEverything
      Made disabled ∧ d ∈ disabled.moments tryEverything ∧ disabled.settings.enabled = false ∧
        d.queue = [] ∧ d.handed = [] ∧ d.phase ≠ .running := by
  intro s
  have moment := (small []).run_mem_moments shutdownThenLook
  obtain ⟨-, -, -, finishes, -⟩ :=
    safeguards_are_never_needed (made_small []) shutdownThenLook moment
  have flushing : s.activity? 0 = some (.shutdown (.flushing .admitted 0 0)) := rfl
  have moment' := disabled.run_mem_moments tryEverything
  obtain ⟨-, -, -, -, -, rests⟩ := safeguards_are_never_needed .disabled tryEverything moment'
  exact ⟨made_small [], moment, flushing,
    ⟨_, rfl, _, finishes 0 .admitted 0 0 _ flushing rfl, rfl⟩,
    .disabled, moment', rfl, rests (.inl rfl)⟩

end EventRelay.Publisher
