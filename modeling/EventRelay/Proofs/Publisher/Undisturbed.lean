import EventRelay.Proofs.Publisher.Courses
import EventRelay.Proofs.Publisher.Losses

/-!
# An undisturbed flush

A flush that has the turn is disturbed by two things only: it is cut off, or time passes the moment
at which it could go on. Whatever else happens meanwhile, events are offered, other activities
begin, run or are cut off, the flush follows the course that was fixed when it began, and offers are
all that happens to the queue and to the counters besides.
-/

namespace EventRelay.Publisher

open Relation

/-- While an activity is inside, no other takes a batch or counts one. -/
theorem Books.Work.spares {b b' : Books} (w : b.Work b') (line : InLine b.posts b.turn)
    {me : ActivityId} {r : Option Role} {c : Cycle} (entry : b.posts[me]? = some ⟨r, some c⟩)
    (inside : c.Inside) (kept : b'.posts[me]? = b.posts[me]?) :
    b'.queue = b.queue ∧ b'.stats = b.stats ∧ b'.tale = b.tale := by
  have mine := line.inside (cycleAt_of_entry entry) inside
  -- Whoever else is inside is the same activity, whose entry would have changed.
  have alone {i : ActivityId} {p q : Post} {c' : Cycle} (hi : b.posts[i]? = some p)
      (hp : p.cycle = some c') (inside' : c'.Inside) (set : b'.posts = b.posts.set i q) :
      q.cycle = some c' := by
    have theirs := line.inside ((cycleAt_of_entry hi).trans hp) inside'
    obtain rfl : me = i := Option.some.inj (mine.symm.trans theirs)
    rw [set, getElem?_set_of_some hi q, hi] at kept
    rw [Option.some.inj kept, hp]
  have idle {c : Option Cycle} {c' : Cycle} (hi : Idle c) (he : c = some c') (hin : c'.Inside) :
      b'.queue = b.queue ∧ b'.stats = b.stats ∧ b'.tale = b.tale :=
    absurd hin (Idle.not_inside (he ▸ hi))
  cases w with
  | join => exact ⟨rfl, rfl, rfl⟩
  | shift => exact ⟨rfl, rfl, rfl⟩
  | discard entry' _ after => exact idle after (alone entry' rfl trivial rfl) trivial
  | ship entry' => cases alone entry' rfl trivial rfl
  | retry entry' => cases alone entry' rfl trivial rfl
  | resume entry' => cases alone entry' rfl trivial rfl
  | settle entry' _ after => exact idle after (alone entry' rfl trivial rfl) trivial
  | forgo entry' _ after => exact idle after (alone entry' rfl trivial rfl) trivial

namespace State

/-- An action neither cuts a flush off nor makes it late. -/
def Permits (s : State) (me : ActivityId) : Action → Prop
  | .cancel i => i ≠ me
  | .elapse millis => ∀ limit ∈ s.deadline me, s.now + millis ≤ limit
  | _ => True

/-- In a run at most up to its end, a flush is neither cut off nor late. -/
def Undisturbed (me : ActivityId) (s : State) : List Action → Prop
  | [] => True
  | a :: rest => s.isEnded me = false ∧ s.Permits me a ∧ (s.apply a).Undisturbed me rest

instance (s : State) (me : ActivityId) : (a : Action) → Decidable (s.Permits me a)
  | .cancel i => inferInstanceAs (Decidable (i ≠ me))
  | .elapse millis =>
    inferInstanceAs (Decidable (∀ limit ∈ s.deadline me, s.now + millis ≤ limit))
  | .offer _ => .isTrue trivial
  | .start _ => .isTrue trivial
  | .flush => .isTrue trivial
  | .shutdown => .isTrue trivial
  | .step _ => .isTrue trivial
  | .poll _ => .isTrue trivial

instance decidableUndisturbed (me : ActivityId) :
    ∀ (s : State) (actions : List Action), Decidable (s.Undisturbed me actions)
  | _, [] => .isTrue trivial
  | s, a :: rest =>
    have := decidableUndisturbed me (s.apply a) rest
    inferInstanceAs (Decidable (_ ∧ _ ∧ _))

variable {s t u : State} {me i : ActivityId}

/-- A flush is known by its entry in the books. -/
theorem flush_of_entry {c : Cycle} (h : s.books.posts[me]? = some ⟨some .flush, some c⟩) :
    s.activity? me = some (.flush c) := by
  rw [getElem?_posts] at h
  obtain ⟨a, ha, hp⟩ := Option.map_eq_some_iff.mp h
  cases a with
  | flush c' =>
    cases hp
    exact ha
  | _ => cases hp

/-- An offer leaves the clock and the way to the collector as they are. -/
theorem offer_same (s : State) (e : Event) :
    (s.offer e).1.now = s.now ∧ (s.offer e).1.transport = s.transport := by
  unfold offer
  split
  · exact ⟨rfl, rfl⟩
  · split
    · dsimp only
      split <;> exact ⟨rfl, rfl⟩
    · exact ⟨rfl, rfl⟩

end State

namespace OnCourse

variable {s t u : State} {tr : Transport} {me i : ActivityId} {stage : Stage} {es : List Event}

/-- Until it is over a flush is inside. -/
private theorem inside (stage : Stage) (c : Course) (more : stage ≠ .returned) :
    ∃ cycle : Cycle, c.activity stage = .flush cycle ∧ cycle.Inside := by
  cases stage with
  | first => exact ⟨_, rfl, trivial⟩
  | pause => exact ⟨_, rfl, trivial⟩
  | second => exact ⟨_, rfl, trivial⟩
  | returned => exact absurd rfl more

/-- What another activity does leaves the flush on its course. -/
private theorem other (h : OnCourse s tr me stage es t) (more : stage ≠ .returned)
    (reached : t.Reached) (hi : i ≠ me) (leaves : t.Leaves i u)
    (work : ReflGen Books.Work t.books u.books) : OnCourse s tr me stage es u := by
  obtain ⟨c, flush, inside⟩ := inside stage (s.course tr) more
  have entry : t.books.posts[me]? = some ⟨some .flush, some c⟩ :=
    State.entry_of_activity (h.activity.trans (congrArg some flush))
  have kept := leaves.others me (Ne.symm hi)
  have spared : u.settings = t.settings ∧ u.books.queue = t.books.queue ∧
      u.books.stats = t.books.stats ∧ u.books.tale = t.books.tale := by
    rcases (reflGen_iff _ _ _).mp work with he | w
    · exact ⟨congrArg Books.settings he, by rw [he], by rw [he], by rw [he]⟩
    · exact ⟨(Books.Step.work w).settings, w.spares reached.audited.line entry inside kept⟩
  obtain ⟨settings, queue, stats, tale⟩ := spared
  exact {
    possible := h.possible
    activity := (State.flush_of_entry (kept.trans entry)).trans (congrArg some flush.symm)
    transport := (leaves.transport tale).trans h.transport
    settings := settings.trans h.settings
    queue := Eq.trans queue h.queue
    stats := (congrArg Stats.shipping stats).trans h.stats
    handed := by rw [← handings_tale, tale, handings_tale, h.handed]
    since := leaves.now.symm ▸ h.since
    due := leaves.now.symm ▸ h.due }

/-- An offer adds to the queue at most. -/
private theorem offer (h : OnCourse s tr me stage es t) (e : Event) :
    OnCourse s tr me stage (es ++ t.answer (.offer e)) (t.offer e).1 := by
  obtain ⟨now, transport⟩ := t.offer_same e
  have entered : ∃ v, (t.offer e).1.books = t.books.offer e v ∧
      (t.books.offer e v).queue = t.queue ++ t.answer (.offer e) := by
    rw [State.answer]
    rcases t.books_offer e with ⟨yes, hb⟩ | ⟨no, v, hv, hb⟩
    · exact ⟨_, hb, by rw [yes, if_pos rfl]; rfl⟩
    · refine ⟨_, hb, ?_⟩
      rw [no, if_neg Bool.false_ne_true, List.append_nil]
      cases v with
      | accepted => contradiction
      | rejected => rfl
      | full => rfl
  obtain ⟨v, hb, queue⟩ := entered
  have tale : handings (t.books.offer e v).tale = handings t.books.tale := by
    cases v <;> exact reading_skip rfl
  have stats : (t.books.offer e v).stats.shipping = t.stats.shipping := by cases v <;> rfl
  have settings : (t.books.offer e v).settings = t.settings := by cases v <;> rfl
  exact {
    possible := h.possible
    activity := (t.activity?_offer e me).trans h.activity
    transport := transport.trans h.transport
    settings := (congrArg Books.settings hb).trans (settings.trans h.settings)
    queue := by
      rw [← List.append_assoc, ← h.queue, ← queue]
      exact congrArg Books.queue hb
    stats := (congrArg (fun b => b.stats.shipping) hb).trans (stats.trans h.stats)
    handed := by rw [← handings_tale, hb, tale, handings_tale, h.handed]
    since := now.symm ▸ h.since
    due := now.symm ▸ h.due }

/-- Time passes no further than the flush waits. -/
theorem elapse (h : OnCourse s tr me stage es t) (more : stage ≠ .returned) {millis : Nat}
    (permits : t.Permits me (.elapse millis)) : OnCourse s tr me stage es (t.elapse millis) :=
  { h with
    since := Nat.le_trans h.since (Nat.le_add_right _ _)
    due := permits _ (h.deadline more) }

/-- Another activity may run until it has to wait. -/
private theorem advance_other (hi : i ≠ me) (more : stage ≠ .returned) (fuel : Nat) :
    ∀ {t : State}, t.Reached → OnCourse s tr me stage es t →
      OnCourse s tr me stage es (t.advance i fuel) := by
  induction fuel with
  | zero => exact fun _ h => h
  | succ fuel ih =>
    intro t reached h
    rw [State.advance]
    cases hs : t.step? i with
    | none => exact h
    | some u =>
      exact ih (reached.acts (.step hs))
        (h.other more reached hi (State.leaves_of_step hs) (State.work_of_step hs))

/-- The flush itself may run until it has to wait. -/
theorem advance_self (first : tr.next.1.ending ≠ .breakdown)
    (second : tr.next.2.next.1.ending ≠ .breakdown) (fuel : Nat) :
    ∀ {t : State} {stage : Stage}, OnCourse s tr me stage es t →
      ∃ stage', OnCourse s tr me stage' es (t.advance me fuel) := by
  induction fuel with
  | zero => exact fun h => ⟨_, h⟩
  | succ fuel ih =>
    intro t stage h
    rw [State.advance]
    cases hs : t.step? me with
    | none => exact ⟨_, h⟩
    | some u =>
      obtain ⟨stage', _, h'⟩ := h.step first second hs
      exact ih h'

/-- Every action that a flush permits leaves it on its course. -/
private theorem apply (h : OnCourse s tr me stage es t) (reached : t.Reached)
    (first : tr.next.1.ending ≠ .breakdown) (second : tr.next.2.next.1.ending ≠ .breakdown)
    (under : t.isEnded me = false) {a : Action} (permits : t.Permits me a) :
    ∃ stage', OnCourse s tr me stage' (es ++ t.answer a) (t.apply a) := by
  have more : stage ≠ .returned := by
    intro returned
    rw [h.isEnded_iff.mpr returned] at under
    contradiction
  have fresh : t.activities.length ≠ me := by
    obtain ⟨hlt, _⟩ := List.getElem?_eq_some_iff.mp h.activity
    exact Nat.ne_of_gt hlt
  rcases a.offer_or with ⟨e, rfl⟩ | no
  · exact ⟨stage, h.offer e⟩
  rw [t.answer_of_ne_offer no, List.append_nil]
  cases a with
  | offer e => exact absurd rfl (no e)
  | start runtime =>
    exact ⟨stage, h.other more reached fresh (t.leaves_start runtime) (t.work_of_start runtime)⟩
  | flush =>
    exact ⟨stage, h.other more reached fresh (t.leaves_addActivity _)
      (State.work_of_acts (.callFlush t))⟩
  | shutdown =>
    exact ⟨stage, h.other more reached fresh (t.leaves_addActivity _)
      (State.work_of_acts (.callShutdown t))⟩
  | step i =>
    rw [State.apply]
    cases hs : t.step? i with
    | none => exact ⟨stage, h⟩
    | some u =>
      by_cases hi : i = me
      · subst hi
        obtain ⟨stage', _, h'⟩ := h.step first second hs
        exact ⟨stage', h'⟩
      · exact ⟨stage, h.other more reached hi (State.leaves_of_step hs) (State.work_of_step hs)⟩
  | poll i =>
    by_cases hi : i = me
    · subst hi
      exact advance_self first second _ h
    · exact ⟨stage, advance_other hi more _ reached h⟩
  | cancel i =>
    rw [State.apply]
    split
    · exact ⟨stage, h⟩
    · exact ⟨stage, h.other more reached permits (t.leaves_cancel i) (t.work_of_cancel i)⟩
  | elapse millis => exact ⟨stage, h.elapse more permits⟩

/-- An undisturbed flush stays on its course. -/
theorem run (first : tr.next.1.ending ≠ .breakdown) (second : tr.next.2.next.1.ending ≠ .breakdown)
    {during : List Action} : ∀ {t : State} {stage : Stage} {es : List Event}, t.Reached →
      OnCourse s tr me stage es t → t.Undisturbed me during →
        ∃ stage', OnCourse s tr me stage' (es ++ t.taken during) (t.run during) := by
  induction during with
  | nil =>
    intro t stage es _ h _
    rw [State.taken, List.append_nil]
    exact ⟨stage, h⟩
  | cons a rest ih =>
    intro t stage es reached h undisturbed
    obtain ⟨under, permits, later⟩ := undisturbed
    obtain ⟨stage', h'⟩ := h.apply reached first second under permits
    rw [State.taken, ← List.append_assoc]
    exact ih (reached.run [a]) h' later

/-- A flush on its course can be run to its end: time passes to the end of its stage, and it makes
its step. -/
theorem can_end (h : OnCourse s tr me stage es t) (first : tr.next.1.ending ≠ .breakdown)
    (second : tr.next.2.next.1.ending ≠ .breakdown) :
    ∃ more, t.Undisturbed me more ∧ (t.run more).isEnded me = true := by
  -- Every step leads to a later stage.
  induction hn : stage.rank using Nat.strongRecOn generalizing stage t with
  | ind n ih =>
    by_cases returned : stage = .returned
    · exact ⟨[], trivial, h.isEnded_iff.mpr returned⟩
    · have under : t.isEnded me = false :=
        eq_false_of_ne_true fun ended => returned (h.isEnded_iff.mp ended)
      let millis := (s.course tr).due stage - t.now
      have permits : t.Permits me (.elapse millis) := by
        intro limit hl
        rw [h.deadline returned] at hl
        obtain rfl := Option.some.inj hl
        exact Nat.le_of_eq (Nat.add_sub_of_le h.due)
      have waited := h.elapse returned permits
      obtain ⟨u, hs⟩ := waited.exists_step first second returned (Nat.add_sub_of_le h.due)
      obtain ⟨stage', less, h'⟩ := waited.step first second hs
      obtain ⟨more, undisturbed, ended⟩ := ih _ (hn ▸ less) h' rfl
      have stepped : (t.elapse millis).apply (.step me) = u := State.apply_step hs
      refine ⟨.elapse millis :: .step me :: more, ⟨under, permits, under, trivial, ?_⟩, ?_⟩
      · exact stepped.symm ▸ undisturbed
      · rw [State.run_cons, State.run_cons]
        exact stepped.symm ▸ ended

/-- A flush that finds the turn free and something queued is on its course as soon as it has run
until it has to wait. -/
private theorem of_poll (called : s.activity? me = some (.flush .arriving))
    (free : s.turn.holder = none) (supplied : s.transport = some tr) (queued : s.queue ≠ [])
    (first : tr.next.1.ending ≠ .breakdown) (second : tr.next.2.next.1.ending ≠ .breakdown) :
    ∃ stage, OnCourse s tr me stage [] (s.poll me) := by
  obtain ⟨t, enters, takes, h⟩ := begin called free supplied queued
  rw [State.poll, State.fuel, State.advance_step enters, State.advance_step takes]
  exact advance_self first second _ h

end OnCourse

namespace State

variable {s : State} {me : ActivityId}

/-- A flush that finds the turn free and nothing queued returns at once. -/
theorem poll_of_empty (called : s.activity? me = some (.flush .arriving))
    (free : s.turn.holder = none) (empty : s.queue = []) :
    s.poll me = (s.admitted me).release.close me (.flushed .empty) := by
  obtain ⟨enters, entered⟩ := s.step_arriving called free
  have returns : (s.admitted me).step? me =
      some ((s.admitted me).release.close me (.flushed .empty)) := by
    rw [step?, entered]
    simp only [Cycle.step, if_pos (show (s.admitted me).queue = [] from empty)]
  have ended : ((s.admitted me).release.close me (.flushed .empty)).activity? me =
      some (.ended (.flushed .empty)) := getElem?_set_of_some entered _
  rw [poll, fuel, advance_step enters, advance_step returns, advance_ended ended]

end State

/-- What a publisher counts as accepted grows by what it accepts. -/
theorem Made.accepted_grows {s₀ : State} (made : Made s₀) (actions later : List Action) :
    ((s₀.run actions).run later).stats.accepted =
      (s₀.run actions).stats.accepted + ((s₀.run actions).taken later).length := by
  have counted := (made.counted (actions ++ later)).accepted
  rw [State.run_append, State.accepted_run, List.length_append,
    ← (made.counted actions).accepted] at counted
  exact counted

/-- A flush that finds the turn free and nothing queued returns at once, makes no attempt and counts
nothing. One that finds something queued, and is neither cut off nor late, follows its course,
whatever happens besides. It takes the first events of the queue, as many as a batch holds. It
makes its first attempt when it begins, and one more if the first does not succeed in time and the
settings allow it, the delay of the settings after the first has ended. It returns when the last
attempt ends, and it has delivered its batch if one of them succeeded in time and dropped it
otherwise. It counts exactly that, and leaves the rest of the queue with what was accepted
meanwhile behind it. -/
theorem undisturbed_flush_follows_its_course {s₀ s : State} (made : Made s₀)
    {actions : List Action} (run : s₀.run actions = s) {me : ActivityId} {tr : Transport}
    (called : s.activity? me = some (.flush .arriving)) (free : s.turn.holder = none)
    (supplied : s.transport = some tr) (first : tr.next.1.ending ≠ .breakdown)
    (second : tr.next.2.next.1.ending ≠ .breakdown) :
    let begun := s.poll me
    let c := s.course tr
    (s.queue = [] →
      begun.activity? me = some (.ended (.flushed .empty)) ∧ begun.stats = s.stats ∧
        begun.history = s.history ∧ begun.transport = s.transport ∧ begun.now = s.now ∧
        begun.queue = []) ∧
    (s.queue ≠ [] → ∀ during, begun.Undisturbed me during →
      let u := begun.run during
      u.now ≤ c.finish ∧
      (∃ more, u.Undisturbed me more ∧ (u.run more).isEnded me = true) ∧
      (u.isEnded me = true →
        c.batch.events = s.queue.take s.settings.batchSize.value ∧
        c.batch.size = min s.settings.batchSize.value s.queue.length ∧
        u.activity? me = some (.ended (.flushed c.outcome)) ∧ u.now = c.finish ∧
        handings u.history = handings s.history ++ c.attempts me .returned ∧
        u.transport = some (c.left tr .returned) ∧
        u.stats.shipping = (c.count s.stats .returned).shipping ∧
        u.stats.accepted = s.stats.accepted + (begun.taken during).length ∧
        u.stats.queueFull = s.stats.queueFull + (begun.turnedAway during).length ∧
        u.stats.offers = s.stats.offers + during.countP Action.isOffer ∧
        u.queue = s.queue.drop s.settings.batchSize.value ++ begun.taken during)) := by
  intro begun c
  refine ⟨fun empty => ?_, fun queued during undisturbed => ?_⟩
  · have entered : (s.admitted me).activity? me = some (.flush .admitted) :=
      (s.step_arriving called free).2
    have returned : begun = (s.admitted me).release.close me (.flushed .empty) :=
      State.poll_of_empty called free empty
    rw [returned]
    exact ⟨getElem?_set_of_some entered _, rfl, rfl, rfl, rfl, empty⟩
  · intro u
    have reached : begun.Reached := State.Reached.run (run ▸ made.reached actions) [.poll me]
    have accepted : (s.run (.poll me :: during)).stats.accepted =
        s.stats.accepted + (s.taken (.poll me :: during)).length :=
      run ▸ made.accepted_grows actions (.poll me :: during)
    obtain ⟨stage, begins⟩ := OnCourse.of_poll called free supplied queued first second
    obtain ⟨stage', h⟩ := begins.run first second reached undisturbed
    rw [List.nil_append] at h
    have timely : u.now ≤ c.finish := Nat.le_trans h.due (Course.due_le_finish h.possible)
    refine ⟨timely, h.can_end first second, fun ended => ?_⟩
    obtain rfl := h.isEnded_iff.mp ended
    exact ⟨rfl, List.length_take, h.activity, Nat.le_antisymm timely h.since, h.handed, h.transport,
      h.stats, accepted, (s.overflows_run (.poll me :: during)).2,
      s.offers_run (.poll me :: during), h.queue⟩

/-- Two of three events are delivered with the second attempt, and the rest is left with the event
that was accepted meanwhile. -/
theorem retried_flush_follows_its_course :
    let responses := [⟨50, .failure (.status 503 "busy")⟩, ⟨10, .success⟩]
    let s := (small responses).run (offers 3 ++ [.flush])
    let c := s.course { coming := responses }
    let during := [.elapse 50, .poll 0, .offer (numbered 3), .elapse 200, .poll 0, .elapse 10,
      .poll 0]
    let u := (s.poll 0).run during
    Made (small responses) ∧ s.activity? 0 = some (.flush .arriving) ∧ s.turn.holder = none ∧
    s.transport = some { coming := responses } ∧ s.queue ≠ [] ∧
    (s.poll 0).Undisturbed 0 during ∧ u.isEnded 0 = true ∧
    u.activity? 0 = some (.ended (.flushed (.delivered 2))) ∧ u.now = 260 ∧
    handings u.history = [⟨0, 0, c.batch, false⟩, ⟨0, 250, c.batch, true⟩] ∧
    u.stats.shipping = { batchesDelivered := 1, eventsDelivered := 2, retries := 1 } ∧
    u.queue = [numbered 2, numbered 3] := by
  intro responses s c during u
  have called : s.activity? 0 = some (.flush .arriving) := by decide +kernel
  have free : s.turn.holder = none := by decide +kernel
  have supplied : s.transport = some { coming := responses } := rfl
  have queued : s.queue ≠ [] := by decide +kernel
  have undisturbed : (s.poll 0).Undisturbed 0 during := by decide +kernel
  have ended : u.isEnded 0 = true := by decide +kernel
  have run : (small responses).run (offers 3 ++ [.flush]) = s := rfl
  have follows := undisturbed_flush_follows_its_course (made_small responses) run called free
    supplied (by decide) (by decide)
  obtain ⟨_, _, returns⟩ := follows.2 queued during undisturbed
  obtain ⟨_, _, activity, now, handed, _, stats, _, _, _, queue⟩ := returns ended
  have outcome : c.outcome = .delivered 2 := by decide +kernel
  exact ⟨made_small responses, called, free, supplied, queued, undisturbed, ended,
    outcome ▸ activity, now.trans (by decide +kernel), handed.trans (by decide +kernel),
    stats.trans (by decide +kernel), queue.trans (by decide +kernel)⟩

end EventRelay.Publisher
