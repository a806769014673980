import EventRelay.Proofs.Publisher.Books
import EventRelay.Proofs.Publisher.Steps

/-!
# Every event of a run is entered

The steps of a flush cycle, of the loop and of a shutdown are followed one by one: each leaves the
books of the publisher as they are or makes an entry, and so does every other event of a run. The
books after a run come from the books before it by entries alone.
-/

namespace EventRelay.Publisher

open Relation

namespace State

variable {s t : State} {me : ActivityId}

/-- A telling observation is written down. -/
theorem books_observe (s : State) {o : Observation} (h : o.tells = true) :
    (s.observe o).books = { s.books with tale := o :: s.books.tale } := by
  simp only [books, observe, List.filter_cons, h, ite_true]

/-- Other reports are not. -/
theorem books_report (s : State) {n : Notice} (h : (Observation.notice n).tells = false) :
    (s.report n).books = s.books := by
  simp only [books, report, observe, List.filter_cons, h, Bool.false_eq_true, ite_false]

theorem books_setActivity (s : State) (i : ActivityId) (a : Activity) :
    (s.setActivity i a).books = s.books.put i a.post := by
  simp only [books, setActivity, Books.put, List.map_set]

theorem books_addActivity (s : State) (a : Activity) :
    (s.addActivity a).books = { s.books with posts := s.books.posts ++ [a.post] } := by
  simp only [books, addActivity, List.map_append, List.map_cons, List.map_nil]

theorem getElem?_posts (s : State) (i : ActivityId) :
    s.books.posts[i]? = (s.activity? i).map Activity.post :=
  List.getElem?_map

/-- The entry of an activity. -/
theorem entry_of_activity {a : Activity} (h : s.activity? me = some a) :
    s.books.posts[me]? = some a.post := by
  rw [getElem?_posts, h, Option.map_some]

theorem books_drain (s : State) (me : ActivityId) :
    (s.drain me).1.books = { s.books with
      queue := s.queue.drop s.settings.batchSize.value
      tale := .drained me (s.queue.take s.settings.batchSize.value) :: s.books.tale } := by
  rw [drain, books_observe _ rfl]
  rfl

theorem books_nextResponse (s : State) : s.nextResponse.2.books = s.books := by
  unfold nextResponse
  split
  · next h => simp only [books, h, Option.isSome_some]
  · rfl

/-- Handing a batch over is written down and begins an attempt. -/
theorem books_hand (s : State) (me : ActivityId) (batch : Envelope) (second : Bool) :
    (s.hand me batch second).1.books =
      { s.books with tale := .handed me s.nextResponse.2.now batch second :: s.books.tale } := by
  rw [hand, books_observe _ rfl, books_nextResponse]

theorem books_settleDelivered (s : State) (batch : Envelope) :
    (s.settleDelivered batch).books = { s.books with
      stats := Fate.delivered.count s.stats batch
      tale := .notice (Fate.delivered.notice batch) :: s.books.tale } := by
  rw [settleDelivered, report, books_observe _ rfl]
  rfl

theorem books_settleDropped (s : State) (batch : Envelope) (e : DeliveryError) :
    (s.settleDropped batch e).books = { s.books with
      stats := (Fate.dropped e).count s.stats batch
      tale := .notice ((Fate.dropped e).notice batch) :: s.books.tale } := by
  rw [settleDropped, report, books_observe _ rfl]
  rfl

theorem books_abandon (s : State) (batch : Envelope) :
    (s.abandon batch).books = { s.books with
      stats := Fate.abandoned.count s.stats batch
      tale := .notice (Fate.abandoned.notice batch) :: s.books.tale } := by
  rw [abandon, report, books_observe _ rfl]
  rfl

theorem books_release (s : State) :
    s.release.books = { s.books with turn := s.turn.release } := rfl

end State

namespace Cycle

variable {s t : State} {me : ActivityId} {retry : Bool} {c c' : Cycle} {r : Role}

/-- A flush cycle that goes on makes an entry. -/
theorem work_of_goes (h : c.step s me retry = .goes t c')
    (entry : s.books.posts[me]? = some ⟨some r, some c⟩)
    (allowed : retry = true → r ≠ .shutdown ∧ s.settings.retryOnce = true) :
    s.books.Work (t.books.put me ⟨some r, some c'⟩) := by
  have step := steps_of_step h
  cases step with
  | enter free => exact .shift entry (.inl rfl) (.enter free)
  | wait taken => exact .shift entry (.inl rfl) (.wait taken)
  | wake mine => exact .shift entry (.inl rfl) (.wake mine)
  | ship queued left taken supplied =>
    subst left taken
    rw [State.books_hand, State.books_drain]
    exact .ship entry queued rfl
  | retry answer once told =>
    obtain ⟨role, once⟩ := allowed once
    rw [told]
    exact .retry entry role once
  | resume due =>
    rw [State.books_hand]
    exact .resume entry

private theorem books_answered (s : State) (me : ActivityId) (result : Ending) :
    (s.observe (.answered me s.now result)).books =
      { s.books with tale := .answered me s.now result :: s.books.tale } :=
  State.books_observe s rfl

/-- A flush cycle that is over makes an entry. -/
theorem work_of_ends {o : Outcome} (h : c.step s me retry = .ends t o) {role role' : Option Role}
    {c' : Option Cycle} (entry : s.books.posts[me]? = some ⟨role, some c⟩)
    (keeps : role' = role ∨ role' = none) (after : Idle c') :
    s.books.Work (t.books.put me ⟨role', c'⟩) := by
  have step := steps_of_step h
  cases step with
  | empty nothing => exact .shift entry keeps (.leave after)
  | discard queued left taken unsupplied =>
    subst left taken
    have hs : s.books.supplied = false := by
      rw [← Option.isSome_none (α := Transport), ← unsupplied]
      rfl
    exact .discard entry keeps after hs queued rfl
  | @deliver batch second begun response answer =>
    rw [State.books_release, State.books_settleDelivered, books_answered]
    exact @Books.Work.settle s.books me role role' c' batch second begun s.now response
      (some .success) .delivered entry keeps after .delivered
  | @drop batch second begun response e answer last =>
    rw [State.books_release, State.books_settleDropped, books_answered]
    exact @Books.Work.settle s.books me role role' c' batch second begun s.now response
      (some (.failure e)) (.dropped e) entry keeps after (.dropped e)

/-- A flush cycle that the transport takes down makes an entry. -/
theorem work_of_breaks (h : c.step s me retry = .breaks t) {role role' : Option Role}
    {c' : Option Cycle} (entry : s.books.posts[me]? = some ⟨role, some c⟩)
    (keeps : role' = role ∨ role' = none) (after : Idle c') :
    s.books.Work (t.books.put me ⟨role', c'⟩) := by
  have step := steps_of_step h
  cases step with
  | @breakDown batch second begun response answer =>
    rw [State.books_release, State.books_abandon, books_answered]
    exact @Books.Work.settle s.books me role role' c' batch second begun s.now response
      (some .breakdown) .abandoned entry keeps after .broken

/-- Cutting a flush cycle off makes an entry. -/
theorem work_of_cancel {role role' : Option Role} {c' : Option Cycle}
    (entry : s.books.posts[me]? = some ⟨role, some c⟩) (keeps : role' = role ∨ role' = none)
    (after : Idle c') : s.books.Work ((c.cancel s me).books.put me ⟨role', c'⟩) := by
  cases c with
  | arriving => exact .shift entry keeps (.rest .arriving after)
  | waiting => exact .shift entry keeps (.withdraw after)
  | admitted => exact .shift entry keeps (.leave after)
  | attempting batch second begun response =>
    rw [cancel, State.books_release, State.books_abandon]
    exact @Books.Work.settle s.books me role role' c' batch second begun s.now response
      none .abandoned entry keeps after .cut
  | pausing batch resume =>
    rw [cancel, State.books_release, State.books_abandon]
    exact .forgo entry keeps after

end Cycle

/-- An activity without a flush cycle goes on without one, or ends. -/
theorem Books.Work.rest {b : Books} {me : ActivityId} {r r' : Option Role} {c c' : Option Cycle}
    (entry : b.posts[me]? = some ⟨r, c⟩) (keeps : r' = r ∨ r' = none) (before : Idle c)
    (after : Idle c') : b.Work (b.put me ⟨r', c'⟩) :=
  .shift entry keeps (.rest before after)

namespace Loop

variable {s t : State} {me : ActivityId}

private theorem books_toss (s : State) : s.toss.2.books = s.books := by
  unfold State.toss
  split <;> rfl

private theorem books_takeBranch (s : State) (me : ActivityId) (b : Branch) :
    (s.takeBranch me b).books = s.books := by
  cases b <;> rfl

private theorem books_exitLoop (s : State) (me : ActivityId) :
    (s.exitLoop me).books = s.books.put me ⟨none, none⟩ := by
  rw [State.exitLoop, State.close, State.books_setActivity, State.books_report _ rfl]
  rfl

private theorem books_setLoop (s : State) (me : ActivityId) (l : Loop) :
    (s.setLoop me l).books = s.books.put me (Activity.loop l false).post :=
  s.books_setActivity me _

/-- A step of the loop makes at most one entry. -/
theorem work_of_step {l : Loop} (step : l.Steps s me t)
    (ha : s.activity? me = some (.loop l false)) : ReflGen Books.Work s.books t.books := by
  have entry := State.entry_of_activity ha
  cases step with
  | create =>
    rw [books_setLoop]
    exact .single (.rest entry (.inl rfl) .none .none)
  | exit shut =>
    rw [books_exitLoop]
    exact .single (.rest entry (.inr rfl) .none .none)
  | park up =>
    rw [books_setLoop]
    exact .single (.rest entry (.inl rfl) .none .none)
  | leave ready =>
    rw [books_exitLoop, books_takeBranch, books_toss]
    exact .single (.rest entry (.inr rfl) .none .none)
  | wake ready =>
    rw [books_setLoop, books_takeBranch, books_toss]
    exact .single (.rest entry (.inl rfl) .none .none)
  | tick ready =>
    rw [books_setLoop, books_takeBranch, books_toss]
    exact .single (.rest entry (.inl rfl) .none .none)
  | join ready absent => exact .refl
  | rest shut =>
    rw [books_setLoop]
    exact .single (.rest entry (.inl rfl) .none .none)
  | flush up =>
    rw [books_setLoop]
    exact .single (.rest entry (.inl rfl) .none .arriving)
  | goes h =>
    rw [books_setLoop]
    exact .single (Cycle.work_of_goes h entry fun once => ⟨by decide, once⟩)
  | done h short =>
    rw [books_setLoop]
    exact .single (Cycle.work_of_ends h entry (.inl rfl) .none)
  | more h long =>
    rw [books_setLoop]
    exact .single (Cycle.work_of_ends h entry (.inl rfl) .none)
  | breaks h =>
    rw [State.close, State.books_setActivity]
    exact .single (Cycle.work_of_breaks h entry (.inr rfl) .none)

/-- Cutting the loop off makes an entry. -/
theorem work_of_cancel {l : Loop} {cancelled : Bool} (closing : Closing)
    (ha : s.activity? me = some (.loop l cancelled)) :
    s.books.Work ((l.cancel s me).close me closing).books := by
  have entry := State.entry_of_activity ha
  rw [State.close, State.books_setActivity]
  cases l with
  | flushing tick cycle => exact Cycle.work_of_cancel entry (.inr rfl) .none
  | created => exact .rest entry (.inr rfl) .none .none
  | resting tick => exact .rest entry (.inr rfl) .none .none
  | parked tick => exact .rest entry (.inr rfl) .none .none
  | draining tick => exact .rest entry (.inr rfl) .none .none

end Loop

namespace Shutdown

variable {s t : State} {me : ActivityId}

private theorem books_setShutdown (s : State) (me : ActivityId) (d : Shutdown) :
    (s.setShutdown me d).books = s.books.put me (Activity.shutdown d).post :=
  s.books_setActivity me _

private theorem books_move {tr : Transition} (h : s.move? tr = some t) : t.books = s.books := by
  unfold State.move? at h
  obtain ⟨p, _, rfl⟩ := Option.map_eq_some_iff.mp h
  exact State.books_report s rfl

/-- Closing a publisher does not show in the books. -/
theorem books_closing (s : State) : s.closing.books = s.books := rfl

private theorem books_cancelLoop (s : State) (loop : ActivityId) :
    (s.cancelLoop loop).books = s.books := by
  unfold State.cancelLoop
  split
  · next l c hl =>
    have hp : (Activity.loop l true).post = (Activity.loop l c).post := by cases l <;> rfl
    rw [State.books_setActivity, hp]
    exact Books.put_self (State.entry_of_activity hl)
  · rfl

private theorem books_finish (s : State) : ((s.move? .finish).getD s).books = s.books := by
  cases h : s.move? .finish with
  | none => rfl
  | some u => exact books_move h

/-- A step of a shutdown makes an entry. -/
theorem work_of_step {d : Shutdown} (step : d.Steps s me t)
    (ha : s.activity? me = some (.shutdown d)) : s.books.Work t.books := by
  have entry := State.entry_of_activity ha
  cases step with
  | again refused =>
    rw [State.close, State.books_setActivity, State.books_report _ rfl]
    exact .rest entry (.inr rfl) .none .none
  | begin moved alone =>
    rw [books_setShutdown, books_closing, books_move moved]
    exact .rest entry (.inl rfl) .none .arriving
  | await moved worker =>
    rw [books_setShutdown, books_closing, books_move moved]
    exact .rest entry (.inl rfl) .none .none
  | join gone =>
    rw [books_setShutdown]
    exact .rest entry (.inl rfl) .none .arriving
  | overdue alive late =>
    rw [books_setShutdown, books_cancelLoop, State.books_report _ rfl]
    exact .rest entry (.inl rfl) .none .none
  | joinLate gone =>
    rw [books_setShutdown]
    exact .rest entry (.inl rfl) .none .arriving
  | goes h =>
    rw [books_setShutdown]
    exact Cycle.work_of_goes h entry fun never => by contradiction
  | finish h moved =>
    rw [State.close, State.books_setActivity, State.books_report _ rfl, moved, books_finish]
    exact Cycle.work_of_ends h entry (.inr rfl) .none
  | sent h =>
    rw [books_setShutdown]
    exact Cycle.work_of_ends h entry (.inl rfl) .arriving
  | lost h =>
    rw [books_setShutdown]
    exact Cycle.work_of_ends h entry (.inl rfl) .arriving
  | breaks h =>
    rw [State.close, State.books_setActivity]
    exact Cycle.work_of_breaks h entry (.inr rfl) .none

/-- Cutting a shutdown off makes an entry. -/
theorem work_of_cancel {d : Shutdown} (ha : s.activity? me = some (.shutdown d)) :
    s.books.Work ((d.cancel s me).close me .cancelled).books := by
  have entry := State.entry_of_activity ha
  rw [State.close, State.books_setActivity]
  cases d with
  | flushing cycle sent lost => exact Cycle.work_of_cancel entry (.inr rfl) .none
  | called => exact .rest entry (.inr rfl) .none .none
  | joining loop deadline => exact .rest entry (.inr rfl) .none .none
  | cancelling loop => exact .rest entry (.inr rfl) .none .none

end Shutdown

namespace State

variable {s t : State} {me : ActivityId}

/-- A step of an activity makes at most one entry. -/
theorem work_of_step (h : s.step? me = some t) : ReflGen Books.Work s.books t.books := by
  have step := steps_of_step h
  cases step with
  | cut ha => exact .single (Loop.work_of_cancel .cancelled ha)
  | loop ha step => exact Loop.work_of_step step ha
  | goes ha hc =>
    rw [books_setActivity]
    exact .single (Cycle.work_of_goes hc (entry_of_activity ha) fun once => ⟨by decide, once⟩)
  | ends ha hc =>
    rw [close, books_setActivity]
    exact .single (Cycle.work_of_ends hc (entry_of_activity ha) (.inr rfl) .none)
  | breaks ha hc =>
    rw [close, books_setActivity]
    exact .single (Cycle.work_of_breaks hc (entry_of_activity ha) (.inr rfl) .none)
  | shutdown ha step => exact .single (Shutdown.work_of_step step ha)

/-- Cutting an activity off makes at most one entry. -/
theorem work_of_cancel (s : State) (me : ActivityId) :
    ReflGen Books.Work s.books (s.cancel me).books := by
  unfold cancel
  split
  · next ha => exact .single (Loop.work_of_cancel .cancelled ha)
  · next cycle ha =>
    rw [close, books_setActivity]
    exact .single (Cycle.work_of_cancel (entry_of_activity ha) (.inr rfl) .none)
  · next ha => exact .single (Shutdown.work_of_cancel ha)
  · exact .refl

/-- Starting the loop makes at most one entry. -/
theorem work_of_start (s : State) (runtime : Bool) :
    ReflGen Books.Work s.books (s.start runtime).1.books := by
  unfold start
  split
  · exact .refl
  · split
    · exact .refl
    · split
      · exact .refl
      · split
        · exact .refl
        · exact .refl
        · split
          · exact .refl
          · next moved hm =>
            have hb : moved.books = s.books := Shutdown.books_move hm
            have ht : ReflGen Books.Work s.books
                (moved.addActivity (.loop .created false)).books := by
              rw [books_addActivity, hb]
              exact .single (.join .none)
            exact ht

/-- What happens to a publisher, apart from an offer, makes at most one entry. -/
theorem work_of_acts (h : Acts s t) : ReflGen Books.Work s.books t.books := by
  cases h with
  | start runtime => exact s.work_of_start runtime
  | callFlush =>
    rw [callFlush, books_addActivity]
    exact .single (.join .arriving)
  | callShutdown =>
    rw [callShutdown, books_addActivity]
    exact .single (.join .none)
  | step hs => exact work_of_step hs
  | @cancel i _ => exact s.work_of_cancel i
  | elapse millis => exact .refl

/-- Every action but an offer is the work of activities. -/
theorem works_of_apply (s : State) {a : Action} (h : ∀ e, a ≠ .offer e) :
    ReflTransGen Books.Work s.books (s.apply a).books :=
  (s.acts_of_apply h).lift' books fun _ _ act => (work_of_acts act).to_reflTransGen

/-- What the work of activities keeps is kept by every action but an offer. -/
theorem apply_keeps {P : Books → Prop} (keeps : ∀ {b b'}, b.Work b' → P b → P b')
    (start : P s.books) {a : Action} (h : ∀ e, a ≠ .offer e) : P (s.apply a).books := by
  have hw := s.works_of_apply h
  generalize (s.apply a).books = b at hw ⊢
  induction hw with
  | refl => exact start
  | tail _ w keep => exact keeps w keep

/-- What becomes of an offered event is entered. -/
theorem step_of_offer (s : State) (e : Event) : s.books.Step (s.offer e).1.books := by
  unfold offer
  split
  · exact .offer (v := .rejected) trivial
  · next live =>
    simp only [Bool.or_eq_true, Bool.not_eq_true', not_or, Bool.not_eq_false] at live
    split
    · next room =>
      have allowed : s.books.Allows .accepted := by
        have he := live.1
        simp only [enabled, Bool.and_eq_true] at he
        exact ⟨he.1, he.2, room⟩
      have hs := Books.Step.offer (e := e) allowed
      -- Waking the loop does not show in the books.
      dsimp only
      split <;> exact hs
    · next full => exact .offer (v := .full) (Nat.le_of_not_lt full)

/-- What every entry keeps holds of the books after every run. -/
theorem books_run_keeps {P : Books → Prop} (keeps : ∀ {b b'}, b.Step b' → P b → P b')
    (start : P s.books) (actions : List Action) : P (s.run actions).books := by
  refine run_keeps (P := fun s => P s.books) (fun {s} e => keeps (s.step_of_offer e))
    (fun {s t} act ps => ?_) start actions
  rcases (reflGen_iff _ _ _).mp (work_of_acts act) with he | w
  · rw [he]
    exact ps
  · exact keeps (.work w) ps

end State

/-- However a publisher is made, its history tells nothing of events and batches. -/
theorem Made.books_tale {s : State} (made : Made s) : s.books.tale = [] :=
  List.sublist_nil.mp (made.untouched.history.filter Observation.tells)

/-- However a publisher is made, it has no activities. -/
theorem Made.books_posts {s : State} (made : Made s) : s.books.posts = [] := by
  change s.activities.map _ = []
  rw [made.untouched.activities, List.map_nil]

end EventRelay.Publisher
