import EventRelay.Proofs.Publisher.Finality
import EventRelay.Proofs.Publisher.WakeUps

/-!
# Breakdowns of the transport

A transport that breaks down takes the running activity with it, and only then an activity ends in
this way. The flush loop of a running publisher ends in no other way: nothing but a shutdown tells
it to end, and a shutdown leaves the phase in which the publisher runs. So as long as no attempt of
the loop breaks down, running means that the loop lives.
-/

namespace EventRelay.Publisher

open Relation

/-- The activity that the transport has taken down. -/
def Observation.breakdown? : Observation → Option ActivityId
  | .answered i _ .breakdown => some i
  | _ => none

/-- The activities that the transport has taken down, in order. -/
def breakdowns (history : List Observation) : List ActivityId :=
  reading Observation.breakdown? history

/-- What a history tells of breakdowns stands in it. -/
theorem mem_breakdowns {i : ActivityId} {history : List Observation} :
    i ∈ breakdowns history ↔ ∃ time, .answered i time .breakdown ∈ history := by
  constructor
  · intro h
    obtain ⟨o, ho, hi⟩ := List.mem_filterMap.mp h
    unfold Observation.breakdown? at hi
    split at hi
    · next j time =>
      obtain rfl := Option.some.inj hi
      exact ⟨time, List.mem_reverse.mp ho⟩
    · contradiction
  · rintro ⟨time, h⟩
    exact List.mem_filterMap.mpr ⟨_, List.mem_reverse.mpr h, rfl⟩

/-- All activities stay as they are, and no breakdown is told of. -/
def State.Spares (s t : State) : Prop :=
  t.activities = s.activities ∧ breakdowns t.history = breakdowns s.history

/-- A report takes nobody down. -/
theorem State.spares_report (s : State) (n : Notice) : s.Spares (s.report n) :=
  ⟨rfl, reading_skip rfl⟩

theorem State.Spares.trans {s t u : State} (h : s.Spares t) (h' : t.Spares u) : s.Spares u :=
  ⟨h'.1.trans h.1, h'.2.trans h.2⟩

/-- What a step of a flush cycle tells of breakdowns. It leaves all activities as they are. -/
def CycleStep.Tells (s : State) (me : ActivityId) : CycleStep → Prop
  | .waits => True
  | .goes t _ => s.Spares t
  | .ends t _ => s.Spares t
  | .breaks t => t.activities = s.activities ∧ breakdowns t.history = breakdowns s.history ++ [me]

namespace Cycle

private theorem spares_hand (s : State) (me : ActivityId) (batch : Envelope) (second : Bool) :
    s.Spares (s.hand me batch second).1 := by
  have same : s.nextResponse.2.activities = s.activities ∧
      s.nextResponse.2.history = s.history := by
    unfold State.nextResponse
    split <;> exact ⟨rfl, rfl⟩
  refine ⟨same.1, ?_⟩
  rw [← same.2]
  exact reading_skip rfl

/-- A flush cycle tells of a breakdown only when it is taken down by it. -/
theorem tells_of_step {c : Cycle} {s : State} {me : ActivityId} {retry : Bool} {r : CycleStep}
    (h : c.step s me retry = r) : r.Tells s me := by
  have step := steps_of_step h
  cases step with
  | enter free => exact ⟨rfl, rfl⟩
  | wait taken => exact ⟨rfl, rfl⟩
  | wake mine => exact ⟨rfl, rfl⟩
  | empty nothing => exact ⟨rfl, rfl⟩
  | stay others => trivial
  | pend => trivial
  | pause early => trivial
  | discard queued left taken unsupplied =>
    rw [left]
    exact ⟨rfl, (reading_skip rfl).trans (reading_skip rfl)⟩
  | ship queued left taken supplied =>
    rw [left]
    obtain ⟨activities, told⟩ := spares_hand (s.drain me).1 me
      ⟨(s.drain me).1.settings.source, ⟨(s.drain me).1.now⟩, _⟩ false
    exact ⟨activities, told.trans (reading_skip rfl)⟩
  | deliver answer => exact ⟨rfl, (reading_skip rfl).trans (reading_skip rfl)⟩
  | retry answer allowed told =>
    rw [told]
    exact ⟨rfl, (reading_skip rfl).trans (reading_skip rfl)⟩
  | drop answer last => exact ⟨rfl, (reading_skip rfl).trans (reading_skip rfl)⟩
  | breakDown answer => exact ⟨rfl, (reading_skip rfl).trans (reading_find rfl)⟩
  | resume due => exact spares_hand s me _ true

/-- Nobody else is taken down when a flush cycle is cut off. -/
theorem spares_cancel (c : Cycle) (s : State) (me : ActivityId) : s.Spares (c.cancel s me) := by
  cases c with
  | arriving => exact ⟨rfl, rfl⟩
  | waiting => exact ⟨rfl, rfl⟩
  | admitted => exact ⟨rfl, rfl⟩
  | attempting => exact ⟨rfl, reading_skip rfl⟩
  | pausing => exact ⟨rfl, reading_skip rfl⟩

end Cycle

namespace State

variable {s t u : State} {me i : ActivityId} {a b : Activity}

/-- The signals that wake the loop take nobody down. -/
theorem spares_takeBranch (s : State) (me : ActivityId) (b : Branch) :
    s.Spares (s.toss.2.takeBranch me b) := by
  unfold toss
  split <;> cases b <;> exact ⟨rfl, rfl⟩

/-- A transition takes nobody down. -/
theorem spares_move {tr : Transition} (moved : s.move? tr = some t) : s.Spares t := by
  unfold move? at moved
  obtain ⟨p, _, rfl⟩ := Option.map_eq_some_iff.mp moved
  exact ⟨rfl, reading_skip rfl⟩

/-- Cutting the loop off takes nobody else down. -/
theorem spares_cancel_loop (l : Loop) (s : State) (me : ActivityId) :
    s.Spares (l.cancel s me) := by
  cases l with
  | flushing tick cycle => exact cycle.spares_cancel s me
  | _ => exact ⟨rfl, rfl⟩

/-- Cutting a shutdown off takes nobody else down. -/
theorem spares_cancel_shutdown (d : Shutdown) (s : State) (me : ActivityId) :
    s.Spares (d.cancel s me) := by
  cases d with
  | flushing cycle sent lost => exact cycle.spares_cancel s me
  | _ => exact ⟨rfl, rfl⟩

/-- Those who have ended by a breakdown are those of whom the history tells it. -/
def Marked (s : State) : Prop :=
  ∀ i, i ∈ breakdowns s.history ↔ s.activity? i = some (.ended .broken)

namespace Marked

/-- Nothing happens to any activity. -/
theorem same (h : s.Marked) (spares : s.Spares u) : u.Marked := by
  intro i
  rw [spares.2, h i, activity?, activity?, spares.1]

/-- An activity goes on, or ends in another way. -/
theorem put (h : s.Marked) (spares : s.Spares u) (ha : s.activity? me = some a)
    (before : a ≠ .ended .broken) (after : b ≠ .ended .broken) : (u.setActivity me b).Marked := by
  intro i
  change i ∈ breakdowns u.history ↔ (u.activities.set me b)[i]? = _
  rw [spares.2, h i, spares.1]
  by_cases hi : i = me
  · subst hi
    have hb : (s.activities.set i b)[i]? = some b := getElem?_set_of_some ha b
    rw [hb, ha]
    simp only [Option.some.injEq, before, after]
  · rw [List.getElem?_set_ne (Ne.symm hi)]
    rfl

/-- An activity is taken down by the transport. -/
theorem broken (h : s.Marked) (activities : u.activities = s.activities)
    (history : breakdowns u.history = breakdowns s.history ++ [me])
    (ha : s.activity? me = some a) : (u.close me .broken).Marked := by
  intro i
  change i ∈ breakdowns u.history ↔ (u.activities.set me (.ended .broken))[i]? = _
  rw [history, activities, List.mem_append, List.mem_singleton, h i]
  by_cases hi : i = me
  · subst hi
    have hb : (s.activities.set i (.ended .broken))[i]? = some (.ended .broken) :=
      getElem?_set_of_some ha _
    rw [hb]
    simp
  · rw [List.getElem?_set_ne (Ne.symm hi)]
    simp only [hi, or_false]
    rfl

/-- An activity begins. -/
theorem add (h : s.Marked) (fresh : a ≠ .ended .broken) : (s.addActivity a).Marked := by
  intro i
  change i ∈ breakdowns s.history ↔ (s.activities ++ [a])[i]? = _
  rw [h i]
  constructor
  · intro hi
    exact getElem?_append_of_some hi a
  · intro hi
    rcases getElem?_of_append hi with ⟨_, he⟩ | hi
    · exact absurd he.symm fresh
    · exact hi

theorem offer (h : s.Marked) (e : Event) : (s.offer e).1.Marked := by
  refine h.same ?_
  unfold State.offer
  split
  · exact ⟨rfl, (reading_skip rfl).trans (reading_skip rfl)⟩
  · split
    · dsimp only
      split <;> exact ⟨rfl, reading_skip rfl⟩
    · exact ⟨rfl, (reading_skip rfl).trans (reading_skip rfl)⟩

theorem start (h : s.Marked) (runtime : Bool) : (s.start runtime).1.Marked := by
  unfold State.start
  split
  · exact h.same (s.spares_report _)
  · split
    · exact h.same (s.spares_report _)
    · split
      · exact h
      · split
        · exact h
        · exact h.same (s.spares_report _)
        · split
          · exact h
          · next moved hm =>
            have begun : (moved.addActivity (.loop .created false)).Marked :=
              (h.same (spares_move hm)).add (by simp)
            exact begun.same ⟨rfl, (reading_skip rfl).trans (reading_skip rfl)⟩

/-- A step of the loop. -/
theorem loop_step (h : s.Marked) {l : Loop} (ha : s.activity? me = some (.loop l false))
    (step : l.Steps s me t) : t.Marked := by
  have onward {u : State} (spares : s.Spares u) (l' : Loop) : (u.setLoop me l').Marked :=
    h.put spares ha (by simp) (by simp)
  have exits {u : State} (spares : s.Spares u) : (u.exitLoop me).Marked := by
    refine h.put ⟨spares.1, ?_⟩ ha (by simp) (by simp)
    exact (reading_skip rfl).trans spares.2
  cases step with
  | create => exact onward ⟨rfl, rfl⟩ _
  | exit shut => exact exits ⟨rfl, rfl⟩
  | park up => exact onward ⟨rfl, rfl⟩ _
  | leave ready => exact exits (s.spares_takeBranch me .shutdown)
  | wake ready => exact onward (s.spares_takeBranch me .wake) _
  | tick ready => exact onward (s.spares_takeBranch me .tick) _
  | join ready absent => exact h.same ⟨rfl, rfl⟩
  | rest shut => exact onward ⟨rfl, rfl⟩ _
  | flush up => exact onward ⟨rfl, rfl⟩ _
  | goes hc => exact onward (Cycle.tells_of_step hc) _
  | done hc short => exact onward (Cycle.tells_of_step hc) _
  | more hc long => exact onward (Cycle.tells_of_step hc) _
  | breaks hc =>
    obtain ⟨activities, told⟩ := Cycle.tells_of_step hc
    exact h.broken activities told ha

/-- A step of a shutdown, which may ask the loop to end. -/
theorem shutdown_step (h : s.Marked) {d : Shutdown} (ha : s.activity? me = some (.shutdown d))
    (step : d.Steps s me t) : t.Marked := by
  have onward {u : State} (spares : s.Spares u) (d' : Shutdown) : (u.setShutdown me d').Marked :=
    h.put spares ha (by simp) (by simp)
  have returns {u : State} (spares : s.Spares u) : (u.close me .stopped).Marked :=
    h.put spares ha (by simp) (by simp)
  cases step with
  | again refused => exact returns (s.spares_report _)
  | begin moved alone => exact onward (spares_move moved) _
  | await moved worker => exact onward (spares_move moved) _
  | join gone => exact onward ⟨rfl, rfl⟩ _
  | @overdue loop deadline alive late =>
    have told : (s.report (.loopOverdue s.settings.shutdownTimeout)).Marked :=
      h.same (s.spares_report _)
    unfold cancelLoop
    split
    · next l c hl =>
      have other : me ≠ loop := by
        rintro rfl
        cases ha.symm.trans hl
      have asked := told.put ⟨rfl, rfl⟩ hl (b := .loop l true) (by simp) (by simp)
      refine asked.put (a := .shutdown (.joining loop deadline)) ⟨rfl, rfl⟩ ?_ (by simp) (by simp)
      exact (List.getElem?_set_ne (Ne.symm other)).trans ha
    · exact told.put (a := .shutdown (.joining loop deadline)) ⟨rfl, rfl⟩ ha (by simp) (by simp)
  | joinLate gone => exact onward ⟨rfl, rfl⟩ _
  | goes hc => exact onward (Cycle.tells_of_step hc) _
  | @finish sent lost c u v hc moved =>
    have finished : u.Spares v := by
      rw [moved]
      cases hm : u.move? .finish with
      | none => exact ⟨rfl, rfl⟩
      | some w => exact spares_move hm
    exact returns (((Cycle.tells_of_step hc : s.Spares u).trans finished).trans (v.spares_report _))
  | sent hc => exact onward (Cycle.tells_of_step hc) _
  | lost hc => exact onward (Cycle.tells_of_step hc) _
  | breaks hc =>
    obtain ⟨activities, told⟩ := Cycle.tells_of_step hc
    exact h.broken activities told ha

/-- A step of an activity. -/
theorem step (h : s.Marked) (hs : s.step? me = some t) : t.Marked := by
  have step := steps_of_step hs
  cases step with
  | @cut l ha => exact h.put (spares_cancel_loop l s me) ha (by simp) (by simp)
  | loop ha step => exact h.loop_step ha step
  | goes ha hc => exact h.put (Cycle.tells_of_step hc) ha (by simp) (by simp)
  | ends ha hc => exact h.put (Cycle.tells_of_step hc) ha (by simp) (by simp)
  | breaks ha hc =>
    obtain ⟨activities, told⟩ := Cycle.tells_of_step hc
    exact h.broken activities told ha
  | shutdown ha step => exact h.shutdown_step ha step

theorem cancel (h : s.Marked) (me : ActivityId) : (s.cancel me).Marked := by
  unfold State.cancel
  split
  · next l c ha => exact h.put (spares_cancel_loop l s me) ha (by simp) (by simp)
  · next cycle ha => exact h.put (cycle.spares_cancel s me) ha (by simp) (by simp)
  · next d ha => exact h.put (spares_cancel_shutdown d s me) ha (by simp) (by simp)
  · exact h

/-- Whatever happens, the history tells of all breakdowns. -/
theorem acts (h : s.Marked) (act : Acts s t) : t.Marked := by
  cases act with
  | start runtime => exact h.start runtime
  | callFlush => exact h.add (by simp)
  | callShutdown => exact h.add (by simp)
  | step hs => exact h.step hs
  | @cancel i other => exact h.cancel i
  | elapse millis => exact h.same ⟨rfl, rfl⟩

end Marked

end State

/-- In every reachable state the history tells who was taken down by the transport. -/
theorem Made.marked {s : State} (made : Made s) (actions : List Action) :
    (s.run actions).Marked := by
  have hu := made.untouched
  refine State.run_keeps (fun e h => h.offer e) (fun act h => h.acts act) (fun i => ?_) actions
  have told : breakdowns s.history = [] := by
    refine List.eq_nil_iff_forall_not_mem.mpr fun j hj => ?_
    obtain ⟨time, ht⟩ := mem_breakdowns.mp hj
    have stands := List.mem_singleton.mp (hu.history.subset ht)
    contradiction
  rw [told, State.activity?, hu.activities]
  simp

namespace Lifecycle

variable {l l' : Lifecycle}

/-- A running publisher knows its loop, which lives unless the transport has taken it down. -/
def Manned (l : Lifecycle) : Prop :=
  l.phase = .running → ∃ i, l.worker = some i ∧
    (l.parts[i]? = some .loop ∨ l.parts[i]? = some (.ended .broken))

/-- A publisher that is running was running before, with the same worker, or has just been
started. -/
theorem Step.running (step : l.Step l') (sound : l.Sound) (running : l'.phase = .running) :
    (l.phase = .running ∧ l'.worker = l.worker) ∨
      ∃ i, l'.worker = some i ∧ l'.parts[i]? = some .loop := by
  cases step with
  | join => exact .inl ⟨running, rfl⟩
  | launch => exact .inr ⟨l.parts.length, rfl, List.getElem?_concat_length⟩
  | move m =>
    cases m with
    | leave => exact .inl ⟨running, rfl⟩
    | stop => contradiction
    | joined => exact .inl ⟨running, rfl⟩
    | finish entry =>
      have stopping : l.phase = .stopping := (sound.awaited entry).1
      rw [stopping] at running
      contradiction

end Lifecycle

namespace State

variable {s t : State} {me : ActivityId} {l : Loop} {cancelled : Bool}

/-- While the publisher runs, the only step with which the loop ends is a breakdown. -/
theorem Vigilant.loop_holds (h : s.Vigilant) (sound : s.lifecycle.Sound)
    (running : s.phase = .running) (ha : s.activity? me = some (.loop l cancelled))
    (hs : s.step? me = some t) :
    t.lifecycle.parts[me]? = some .loop ∨ t.lifecycle.parts[me]? = some (.ended .broken) := by
  have up : s.shutdown = false := h.shut.symm.trans (sound.running running).1
  obtain ⟨rfl, _⟩ := h.loop ha up
  have onward {u : State} (hu : u.lifecycle = s.lifecycle) (l' : Loop) :
      (u.setLoop me l').lifecycle.parts[me]? = some .loop :=
    part_setActivity hu ha (.loop l' false)
  rw [step?, ha] at hs
  have step := Loop.steps_of_step hs
  cases step with
  | create => exact .inl (onward rfl _)
  | exit shut => cases up.symm.trans shut
  | park up => exact .inl (onward rfl _)
  | leave ready =>
    -- The signal of a shutdown is given only by a shutdown.
    have told : s.branchReady me _ .shutdown = true := List.find?_some ready
    cases (h.quiet up).not_ready.symm.trans told
  | wake ready => exact .inl (onward (Loop.lifecycle_takeBranch s me .wake) _)
  | tick ready => exact .inl (onward (Loop.lifecycle_takeBranch s me .tick) _)
  | join ready absent => exact .inl (part_of_activity ha)
  | rest shut => exact .inl (onward rfl _)
  | flush up => exact .inl (onward rfl _)
  | goes hc => exact .inl (onward (Cycle.lifecycle_of_step hc) _)
  | done hc short => exact .inl (onward (Cycle.lifecycle_of_step hc) _)
  | more hc long => exact .inl (onward (Cycle.lifecycle_of_step hc) _)
  | breaks hc =>
    exact .inr (part_setActivity (Cycle.lifecycle_of_step hc) ha (.ended .broken))

/-- Whatever happens, a running publisher keeps its loop, or loses it by a breakdown. -/
theorem manned_of_acts (manned : s.lifecycle.Manned) (sound : s.lifecycle.Sound)
    (vigilant : s.Vigilant) (act : Acts s t) : t.lifecycle.Manned := by
  intro running
  rcases (reflGen_iff _ _ _).mp (lifecycle_of_acts act) with same | step
  · rw [same] at running ⊢
    exact manned running
  · rcases step.running sound running with ⟨before, kept⟩ | ⟨i, worker, lives⟩
    · obtain ⟨i, worker, lives | broken⟩ := manned before
      · refine ⟨i, kept.trans worker, ?_⟩
        obtain ⟨l, c, ha⟩ := loop_of_part lives
        rcases part_of_acts act lives with still | hs | ⟨other, _⟩
        · exact .inl still
        · exact vigilant.loop_holds sound before ha hs
        · exact absurd ha (other l c)
      · refine ⟨i, kept.trans worker, .inr ?_⟩
        exact part_of_activity (ended_of_acts act (ended_of_part broken))
    · exact ⟨i, worker, .inl lives⟩

end State

/-- In every reachable state in which the publisher runs, its loop lives unless the transport has
taken it down. -/
theorem Made.manned {s : State} (made : Made s) (actions : List Action) :
    (s.run actions).lifecycle.Manned := by
  have start : s.lifecycle.Sound ∧ s.Vigilant ∧ s.lifecycle.Manned := by
    refine ⟨made.sound [], made.vigilant [], fun running => ?_⟩
    have stopped : s.phase = .stopped := made.untouched.phase
    rw [show s.lifecycle.phase = .stopped from stopped] at running
    contradiction
  refine (State.run_keeps (P := fun s => s.lifecycle.Sound ∧ s.Vigilant ∧ s.lifecycle.Manned)
    (fun {s} e h => ?_) (fun {s t} act h => ?_) start actions).2.2
  · rw [s.lifecycle_offer]
    exact ⟨h.1, h.2.1.offer e, h.2.2⟩
  · exact ⟨State.sound_of_acts act h.1, h.2.1.acts h.1 act,
      State.manned_of_acts h.2.2 h.1 h.2.1 act⟩

/-- At every moment at which a publisher runs, its loop is known. Either one of its attempts has
broken down, and then it has ended; or none has, and then it lives, has not been told to end, and if
it waits beside a full batch or past its tick the next thing it does is to flush. -/
theorem running_loop_lives_unless_broken {s₀ : State} (made : Made s₀) (actions : List Action)
    {s : State} (moment : s ∈ s₀.moments actions) (running : s.phase = .running) :
    ∃ i, s.worker = some i ∧
      (((∃ time, .answered i time .breakdown ∈ s.history) ∧
          s.activity? i = some (.ended .broken)) ∨
        ((∀ time, .answered i time .breakdown ∉ s.history) ∧
          ∃ l, s.activity? i = some (.loop l false) ∧
            ∀ tick, l = .parked tick → s.HasBatch ∨ tick ≤ s.now →
              ∃ t tick', s.step? i = some t ∧
                t.activity? i = some (.loop (.draining tick') false))) := by
  obtain ⟨before, _, rfl, _⟩ := State.exists_of_mem_moments moment
  have vigilant := made.vigilant before
  have marked := made.marked before
  have opened : (s₀.run before).closed = false := ((made.sound before).running running).1
  have up : (s₀.run before).shutdown = false := vigilant.shut.symm.trans opened
  obtain ⟨i, worker, lives | broken⟩ := made.manned before running
  · obtain ⟨l, c, ha⟩ := State.loop_of_part lives
    obtain ⟨rfl, alert⟩ := vigilant.loop ha up
    refine ⟨i, worker, .inr ⟨fun time told => ?_, l, ha, fun tick parked trigger => ?_⟩⟩
    · have ended := (marked i).mp (mem_breakdowns.mpr ⟨time, told⟩)
      cases ha.symm.trans ended
    · subst parked
      rcases trigger with full | due
      · exact vigilant.flushes ha up (alert.2 full)
      · have ready : (s₀.run before).branchReady i tick .tick = true := decide_eq_true due
        exact vigilant.goes_on ha up ready
  · have ended := State.ended_of_part broken
    exact ⟨i, worker, .inl ⟨mem_breakdowns.mp ((marked i).mpr ended), ended⟩⟩

/-- Beside a full batch a loop that waits while its publisher runs is about to flush. -/
theorem waiting_loop_of_running_publisher_flushes :
    let s := (small []).run waitThenOffer
    Made (small []) ∧ s ∈ (small []).moments waitThenOffer ∧ s.phase = .running ∧
      s.worker = some 0 ∧ ∃ t tick, s.step? 0 = some t ∧
        t.activity? 0 = some (.loop (.draining tick) false) := by
  intro s
  have moment := (small []).run_mem_moments waitThenOffer
  have parked : s.activity? 0 = some (.loop (.parked 2000) false) := rfl
  obtain ⟨i, worker, ⟨_, ended⟩ | ⟨_, l, lives, flushes⟩⟩ :=
    running_loop_lives_unless_broken (made_small []) waitThenOffer moment rfl
  · obtain rfl : 0 = i := Option.some.inj worker
    cases parked.symm.trans ended
  · obtain rfl : 0 = i := Option.some.inj worker
    cases parked.symm.trans lives
    exact ⟨made_small [], moment, rfl, rfl, flushes 2000 rfl (.inl (Nat.le_refl 2))⟩

/-- The loop is started and waits, the attempt of the first batch breaks down, and a second batch is
offered. -/
def breakThenOffer : List Action :=
  [.start true, .poll 0] ++ offers 2 ++ [.poll 0] ++ offers 2

/-- A publisher whose loop was taken down by the transport still runs. A full batch is queued, and
neither its signal nor the tick nor another start brings about a flush. -/
theorem broken_loop_leaves_publisher_running :
    let s := (small [⟨0, .breakdown⟩]).run breakThenOffer
    Made (small [⟨0, .breakdown⟩]) ∧ s.phase = .running ∧ s.worker = some 0 ∧
      s.activities = [.ended .broken] ∧ s.HasBatch ∧
      let t := s.run [.poll 0, .elapse 2000, .poll 0, .start true, .poll 0]
      t.phase = .running ∧ t.activities = [.ended .broken] ∧ t.queue = s.queue := by
  intro s
  exact ⟨made_small _, rfl, rfl, rfl, Nat.le_refl 2, rfl, rfl, rfl⟩

end EventRelay.Publisher
