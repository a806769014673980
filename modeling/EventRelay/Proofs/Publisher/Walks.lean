import EventRelay.Proofs.Publisher.History
import EventRelay.Proofs.Publisher.Lifecycle
import Mathlib.Tactic.SplitIfs

/-!
# Walks through the phases

A walk asks the table of phases for one transition after the other. A transition that the table does
not allow is answered with an error, leaves the phase and is not reported, so the reports of a walk
are those of its allowed transitions. What a publisher reports of its phases in a run is such a
walk: it starts from stopped, ends in the phase that the publisher is in, and has a regular shape.
-/

namespace EventRelay.Publisher

namespace Phase

variable {p q : Phase} {t : Transition}

/-- The phase after transitions, of which those that are not allowed change nothing. -/
def after (p : Phase) (ts : List Transition) : Phase := ts.foldl (fun p t => (p.next? t).getD p) p

/-- The answer of the table. -/
def answer (p : Phase) (t : Transition) : Except PublisherError Phase :=
  match p.next? t with
  | some q => .ok q
  | none => .error (.invalidTransition p t)

/-- Each transition is allowed in the phase to which those before it lead. -/
def Allows : Phase → List Transition → Prop
  | _, [] => True
  | p, t :: rest => ∃ q, p.next? t = some q ∧ q.Allows rest

theorem after_append (p : Phase) (ts us : List Transition) :
    p.after (ts ++ us) = (p.after ts).after us := List.foldl_append

theorem after_cons_of_next (allowed : p.next? t = some q) (ts : List Transition) :
    p.after (t :: ts) = q.after ts := by
  rw [after, List.foldl_cons, allowed, Option.getD_some, after]

theorem after_cons_of_refused (refused : p.next? t = none) (ts : List Transition) :
    p.after (t :: ts) = p.after ts := by
  rw [after, List.foldl_cons, refused, Option.getD_none, after]

theorem walk_cons_of_next (allowed : p.next? t = some q) (ts : List Transition) :
    p.walk (t :: ts) = (.ok q :: (q.walk ts).1, .moved p q t :: (q.walk ts).2) := by
  rw [walk, allowed]

theorem walk_cons_of_refused (refused : p.next? t = none) (ts : List Transition) :
    p.walk (t :: ts) = (.error (.invalidTransition p t) :: (p.walk ts).1, (p.walk ts).2) := by
  rw [walk, refused]

/-- A walk goes on from where it has led. -/
theorem walk_append (p : Phase) (ts us : List Transition) : p.walk (ts ++ us) =
    ((p.walk ts).1 ++ ((p.after ts).walk us).1, (p.walk ts).2 ++ ((p.after ts).walk us).2) := by
  induction ts generalizing p with
  | nil => rfl
  | cons t ts ih =>
    cases h : p.next? t with
    | some q =>
      rw [List.cons_append, walk_cons_of_next h, walk_cons_of_next h, after_cons_of_next h, ih]
      rfl
    | none =>
      rw [List.cons_append, walk_cons_of_refused h, walk_cons_of_refused h,
        after_cons_of_refused h, ih]
      rfl

/-- Every transition is answered as the table says in the phase to which those before it lead. -/
theorem answers_walk (p : Phase) (ts : List Transition) (i : Nat) :
    (p.walk ts).1[i]? = ts[i]?.map (p.after (ts.take i)).answer := by
  induction ts generalizing p i with
  | nil => rfl
  | cons t ts ih =>
    cases i with
    | zero =>
      rw [List.take_zero, List.getElem?_cons_zero, Option.map_some, after, List.foldl_nil, answer]
      cases h : p.next? t with
      | some q => rw [walk_cons_of_next h, List.getElem?_cons_zero]
      | none => rw [walk_cons_of_refused h, List.getElem?_cons_zero]
    | succ i =>
      rw [List.take_succ_cons, List.getElem?_cons_succ]
      cases h : p.next? t with
      | some q => rw [walk_cons_of_next h, after_cons_of_next h, List.getElem?_cons_succ, ih]
      | none => rw [walk_cons_of_refused h, after_cons_of_refused h, List.getElem?_cons_succ, ih]

/-- Whatever is reported is a transition of the table, and leads to another phase: no transition
that is allowed goes unseen. -/
theorem moved_of_mem_walk {p : Phase} {ts : List Transition} {n : Notice} (h : n ∈ (p.walk ts).2) :
    ∃ p q t, n = .moved p q t ∧ p.next? t = some q ∧ q ≠ p := by
  induction ts generalizing p with
  | nil => contradiction
  | cons t ts ih =>
    cases allowed : p.next? t with
    | some q =>
      rw [walk_cons_of_next allowed] at h
      rcases List.mem_cons.mp h with rfl | h
      · exact ⟨p, q, t, rfl, allowed, next?_ne allowed⟩
      · exact ih h
    | none =>
      rw [walk_cons_of_refused allowed] at h
      exact ih h

/-- Transitions that are not allowed leave no trace but their answers. -/
theorem exists_allowed_walk (p : Phase) (ts : List Transition) : ∃ allowed, allowed.Sublist ts ∧
    p.Allows allowed ∧ (p.walk allowed).2 = (p.walk ts).2 ∧ p.after allowed = p.after ts := by
  induction ts generalizing p with
  | nil => exact ⟨[], .slnil, trivial, rfl, rfl⟩
  | cons t ts ih =>
    cases h : p.next? t with
    | some q =>
      obtain ⟨allowed, sub, allows, reports, phase⟩ := ih q
      refine ⟨t :: allowed, sub.cons_cons t, ⟨q, h, allows⟩, ?_, ?_⟩
      · rw [walk_cons_of_next h, walk_cons_of_next h, reports]
      · rw [after_cons_of_next h, after_cons_of_next h, phase]
    | none =>
      obtain ⟨allowed, sub, allows, reports, phase⟩ := ih p
      refine ⟨allowed, sub.cons t, allows, ?_, ?_⟩
      · rw [walk_cons_of_refused h, reports]
      · rw [after_cons_of_refused h, phase]

/-- What is allowed can be followed by what is allowed where it leads. -/
theorem Allows.append {ts us : List Transition} (h : p.Allows ts) (more : (p.after ts).Allows us) :
    p.Allows (ts ++ us) := by
  induction ts generalizing p with
  | nil => exact more
  | cons t ts ih =>
    obtain ⟨q, allowed, rest⟩ := h
    rw [after_cons_of_next allowed] at more
    exact ⟨q, allowed, ih rest more⟩

/-- From stopped, without a start, stops and finishes take turns. -/
theorem Allows.alternates {ts : List Transition} (h : stopped.Allows ts) (calm : .start ∉ ts) :
    ∃ rounds, ts = (List.replicate rounds [.stop, .finish]).flatten ++
      if stopped.after ts = .stopping then [.stop] else [] := by
  match ts, h with
  | [], _ => exact ⟨0, rfl⟩
  | .start :: _, _ => exact absurd List.mem_cons_self calm
  | [.stop], _ => exact ⟨0, rfl⟩
  | .stop :: .finish :: ts, h =>
    obtain ⟨_, stop, _, finish, rest⟩ := h
    cases stop
    cases finish
    obtain ⟨rounds, same⟩ := rest.alternates fun member => calm (by simp [member])
    refine ⟨rounds + 1, ?_⟩
    rw [List.replicate_succ, List.flatten_cons, List.append_assoc, after_cons_of_next rfl,
      after_cons_of_next rfl, ← same]
    rfl
  | .stop :: .start :: _, ⟨_, stop, _, start, _⟩ =>
    cases stop
    contradiction
  | .stop :: .stop :: _, ⟨_, stop, _, again, _⟩ =>
    cases stop
    contradiction
  | .finish :: _, ⟨_, finish, _⟩ => contradiction

/-- Without a stop there is at most a start. -/
theorem Allows.eq_of_unstopped {ts : List Transition} (h : stopped.Allows ts)
    (unstopped : .stop ∉ ts) : ts = [] ∨ ts = [.start] := by
  match ts, h with
  | [], _ => exact .inl rfl
  | [.start], _ => exact .inr rfl
  | .stop :: _, _ => exact absurd List.mem_cons_self unstopped
  | .start :: .stop :: _, _ => exact absurd (by simp) unstopped
  | .start :: .start :: _, ⟨_, start, _, again, _⟩ =>
    cases start
    contradiction
  | .start :: .finish :: _, ⟨_, start, _, finish, _⟩ =>
    cases start
    contradiction
  | .finish :: _, ⟨_, finish, _⟩ => contradiction

/-- Transitions with no start but perhaps the first: a start, if there is one, and then stops and
finishes in turn. -/
theorem Allows.shape {ts : List Transition} (h : stopped.Allows ts) (first : .start ∉ ts.tail) :
    ∃ begun rounds, (begun = [] ∨ begun = [.start]) ∧
      ts = begun ++ (List.replicate rounds [.stop, .finish]).flatten ++
        if stopped.after ts = .stopping then [.stop] else [] := by
  match ts, h with
  | [], _ => exact ⟨[], 0, .inl rfl, rfl⟩
  | [.start], _ => exact ⟨[.start], 0, .inr rfl, rfl⟩
  | .start :: .stop :: ts, ⟨_, start, _, stop, rest⟩ =>
    cases start
    cases stop
    -- Running is left like stopped.
    have alone : stopped.Allows (.stop :: ts) := ⟨_, rfl, rest⟩
    obtain ⟨rounds, same⟩ := alone.alternates first
    refine ⟨[.start], rounds, .inr rfl, ?_⟩
    have onward : stopped.after (.start :: .stop :: ts) = stopped.after (.stop :: ts) := rfl
    rw [List.append_assoc, onward, ← same]
    rfl
  | .start :: .start :: _, ⟨_, start, _, again, _⟩ =>
    cases start
    contradiction
  | .start :: .finish :: _, ⟨_, start, _, finish, _⟩ =>
    cases start
    contradiction
  | .stop :: ts, h =>
    obtain ⟨rounds, same⟩ := h.alternates fun member => by
      rcases List.mem_cons.mp member with other | later
      · contradiction
      · exact first later
    exact ⟨[], rounds, .inl rfl, same⟩
  | .finish :: _, ⟨_, finish, _⟩ => contradiction

end Phase

/-! ## Runs -/

/-- The transition that a report tells of. -/
def Notice.transition? : Notice → Option Transition
  | .moved _ _ t => some t
  | _ => none

/-- A report of a transition. -/
def Observation.move? : Observation → Option Notice
  | .notice (.moved p q t) => some (.moved p q t)
  | _ => none

/-- The reports of transitions, in order. -/
def moves (history : List Observation) : List Notice := reading Observation.move? history

/-- The transitions that were reported, in order. -/
def transitions (history : List Observation) : List Transition :=
  (moves history).filterMap Notice.transition?

/-- The reports of a publisher are a walk to its phase, and only its first transition can be a
start. -/
structure State.Walked (s : State) : Prop where
  allowed : Phase.stopped.Allows (transitions s.history)
  reports : moves s.history = (Phase.stopped.walk (transitions s.history)).2
  phase : s.phase = Phase.stopped.after (transitions s.history)
  opened : s.closed = false → .stop ∉ transitions s.history
  first : .start ∉ (transitions s.history).tail

variable {s t u : State} {me : ActivityId}

namespace State.Walked

/-- What is told of anything else leaves the walk. -/
theorem tell (h : s.Walked) (os : List Observation) (history : t.history = os ++ s.history)
    (plain : os.all (·.move?.isNone) = true) (phase : t.phase = s.phase)
    (closed : t.closed = s.closed) : t.Walked := by
  have same : moves t.history = moves s.history := by
    rw [history]
    clear history
    induction os with
    | nil => rfl
    | cons o os ih =>
      rw [List.all_cons, Bool.and_eq_true, Option.isNone_iff_eq_none] at plain
      exact (reading_skip plain.1).trans (ih plain.2)
  have told : transitions t.history = transitions s.history := by
    rw [transitions, same, transitions]
  refine ⟨?_, ?_, ?_, ?_, ?_⟩
  · rw [told]; exact h.allowed
  · rw [told, same]; exact h.reports
  · rw [told, phase]; exact h.phase
  · rw [told, closed]; exact h.opened
  · rw [told]; exact h.first

theorem same (h : s.Walked) (history : t.history = s.history) (phase : t.phase = s.phase)
    (closed : t.closed = s.closed) : t.Walked :=
  h.tell [] history rfl phase closed

/-- A publisher that is open and can be started has made no transition. -/
theorem unmoved_of_start {p : Phase} (h : s.Walked) (opened : s.closed = false)
    (next : s.phase.next? .start = some p) : transitions s.history = [] := by
  rcases h.allowed.eq_of_unstopped (h.opened opened) with none | started
  · exact none
  · rw [h.phase, started] at next
    contradiction

/-- A transition is one more step of the walk. Only an open publisher is started, and a publisher
that is stopped is open no longer. -/
theorem move {tr : Transition} (h : s.Walked) (moved : s.move? tr = some t)
    (opens : tr = .start → s.closed = false) (history : u.history = t.history)
    (phase : u.phase = t.phase) (opened : u.closed = false → s.closed = false ∧ tr ≠ .stop) :
    u.Walked := by
  obtain ⟨p, next, rfl⟩ := Option.map_eq_some_iff.mp moved
  have told : moves u.history = moves s.history ++ [.moved s.phase p tr] := by
    rw [history]
    exact reading_find rfl
  have grown : transitions u.history = transitions s.history ++ [tr] := by
    rw [transitions, told, List.filterMap_append]
    rfl
  have step := h.phase ▸ next
  refine ⟨?_, ?_, ?_, fun still => ?_, ?_⟩
  · rw [grown]
    exact h.allowed.append ⟨p, step, trivial⟩
  · rw [grown, told, Phase.walk_append, ← h.reports, Phase.walk_cons_of_next step, ← h.phase]
    rfl
  · rw [grown, phase, Phase.after_append, Phase.after_cons_of_next step]
    rfl
  · obtain ⟨before, other⟩ := opened still
    rw [grown, List.mem_append, List.mem_singleton, not_or]
    exact ⟨h.opened before, other.symm⟩
  · rw [grown]
    intro member
    by_cases start : tr = .start
    · subst start
      rw [h.unmoved_of_start (opens rfl) next] at member
      contradiction
    · cases before : transitions s.history with
      | nil =>
        rw [before] at member
        contradiction
      | cons first rest =>
        rw [before, List.cons_append, List.tail_cons, List.mem_append, List.mem_singleton] at member
        refine h.first ?_
        rw [before, List.tail_cons]
        exact member.resolve_right (Ne.symm start)

theorem report (h : s.Walked) {n : Notice} (plain : (Observation.notice n).move? = none) :
    (s.report n).Walked :=
  h.tell [.notice n] rfl (by rw [List.all_cons, plain]; rfl) rfl rfl

theorem hand (h : s.Walked) (me : ActivityId) (batch : Envelope) (second : Bool) :
    (s.hand me batch second).1.Walked := by
  unfold State.hand nextResponse
  dsimp only
  split <;> exact h.tell [.handed ..] rfl rfl rfl rfl

end State.Walked

namespace Cycle

/-- A flush cycle makes no transition. -/
theorem walked_of_step {c : Cycle} {retry : Bool} {r : CycleStep} (h : c.step s me retry = r)
    (walked : s.Walked) : r.Leads State.Walked := by
  have step := steps_of_step h
  cases step with
  | stay others => trivial
  | pend => trivial
  | pause early => trivial
  | enter free => exact walked.same rfl rfl rfl
  | wait taken => exact walked.same rfl rfl rfl
  | wake mine => exact walked
  | empty nothing => exact walked.same rfl rfl rfl
  | discard queued left taken unsupplied =>
    rw [left]
    exact walked.tell [.notice (.noCollector ..), .drained ..] rfl rfl rfl rfl
  | ship queued left taken supplied =>
    rw [left]
    have drained : (s.drain me).1.Walked := walked.tell [.drained ..] rfl rfl rfl rfl
    exact drained.hand me _ false
  | deliver answer =>
    exact walked.tell [.notice (.delivered _), .answered ..] rfl rfl rfl rfl
  | retry answer allowed told =>
    rw [told]
    exact walked.tell [.notice (.retrying ..), .answered ..] rfl rfl rfl rfl
  | drop answer last => exact walked.tell [.notice (.dropped ..), .answered ..] rfl rfl rfl rfl
  | breakDown answer => exact walked.tell [.notice (.abandoned ..), .answered ..] rfl rfl rfl rfl
  | resume due => exact walked.hand me _ true

theorem walked_cancel (c : Cycle) (me : ActivityId) (walked : s.Walked) :
    (c.cancel s me).Walked := by
  cases c with
  | arriving => exact walked
  | waiting => exact walked.same rfl rfl rfl
  | admitted => exact walked.same rfl rfl rfl
  | attempting => exact walked.tell [.notice (.abandoned ..)] rfl rfl rfl rfl
  | pausing => exact walked.tell [.notice (.abandoned ..)] rfl rfl rfl rfl

end Cycle

namespace Loop

private theorem walked_takeBranch (walked : s.Walked) (me : ActivityId) (b : Branch) :
    (s.toss.2.takeBranch me b).Walked := by
  unfold State.toss
  split <;> cases b <;> exact walked.same rfl rfl rfl

/-- The loop makes no transition. -/
theorem walked_of_step {l : Loop} (step : l.Steps s me t) (walked : s.Walked) : t.Walked := by
  have exits {u : State} (h : u.Walked) : (u.exitLoop me).Walked :=
    h.tell [.notice .loopExited] rfl rfl rfl rfl
  cases step with
  | create => exact walked.same rfl rfl rfl
  | exit shut => exact exits walked
  | park up => exact walked.same rfl rfl rfl
  | leave ready => exact exits (walked_takeBranch walked me .shutdown)
  | wake ready => exact (walked_takeBranch walked me .wake).same rfl rfl rfl
  | tick ready => exact (walked_takeBranch walked me .tick).same rfl rfl rfl
  | join ready absent => exact walked.same rfl rfl rfl
  | rest shut => exact walked.same rfl rfl rfl
  | flush up => exact walked.same rfl rfl rfl
  | goes h => exact (Cycle.walked_of_step h walked).same rfl rfl rfl
  | done h short => exact (Cycle.walked_of_step h walked).same rfl rfl rfl
  | more h long => exact (Cycle.walked_of_step h walked).same rfl rfl rfl
  | breaks h => exact (Cycle.walked_of_step h walked).same rfl rfl rfl

theorem walked_cancel (l : Loop) (me : ActivityId) (walked : s.Walked) :
    (l.cancel s me).Walked := by
  cases l with
  | parked tick => exact walked.same rfl rfl rfl
  | flushing tick c => exact c.walked_cancel me walked
  | _ => exact walked

end Loop

namespace Shutdown

/-- A shutdown stops and finishes. -/
theorem walked_of_step {d : Shutdown} (step : d.Steps s me t) (walked : s.Walked) : t.Walked := by
  have closes {u v : State} (moved : s.move? .stop = some u) (history : v.history = u.history)
      (phase : v.phase = u.phase) (closed : v.closed = true) : v.Walked :=
    walked.move moved nofun history phase fun opened => by
      rw [closed] at opened
      contradiction
  cases step with
  | again refused => exact walked.tell [.notice (.stopRepeated _)] rfl rfl rfl rfl
  | begin moved alone => exact closes moved rfl rfl rfl
  | await moved worker => exact closes moved rfl rfl rfl
  | join gone => exact walked.same rfl rfl rfl
  | @overdue loop deadline alive late =>
    have told : (s.report (.loopOverdue s.settings.shutdownTimeout)).Walked := walked.report rfl
    unfold State.cancelLoop
    split <;> exact told.same rfl rfl rfl
  | joinLate gone => exact walked.same rfl rfl rfl
  | goes h => exact (Cycle.walked_of_step h walked).same rfl rfl rfl
  | @finish sent lost c t u h moved =>
    have after : t.Walked := Cycle.walked_of_step h walked
    have final : u.Walked := by
      rw [moved]
      cases hm : t.move? .finish with
      | none => exact after
      | some v =>
        refine after.move hm nofun rfl rfl fun opened => ⟨?_, nofun⟩
        obtain ⟨p, -, rfl⟩ := Option.map_eq_some_iff.mp hm
        exact opened
    exact final.tell [.notice (.finished ..)] rfl rfl rfl rfl
  | sent h => exact (Cycle.walked_of_step h walked).same rfl rfl rfl
  | lost h => exact (Cycle.walked_of_step h walked).same rfl rfl rfl
  | breaks h => exact (Cycle.walked_of_step h walked).same rfl rfl rfl

theorem walked_cancel (d : Shutdown) (me : ActivityId) (walked : s.Walked) :
    (d.cancel s me).Walked := by
  cases d with
  | flushing c sent lost => exact c.walked_cancel me walked
  | _ => exact walked

end Shutdown

namespace State.Walked

theorem step (walked : s.Walked) (h : s.step? me = some t) : t.Walked := by
  have step := steps_of_step h
  cases step with
  | @cut l found => exact (l.walked_cancel me walked).same rfl rfl rfl
  | loop found step => exact Loop.walked_of_step step walked
  | goes found hc => exact (Cycle.walked_of_step hc walked).same rfl rfl rfl
  | ends found hc => exact (Cycle.walked_of_step hc walked).same rfl rfl rfl
  | breaks found hc => exact (Cycle.walked_of_step hc walked).same rfl rfl rfl
  | shutdown found step => exact Shutdown.walked_of_step step walked

theorem cancel (walked : s.Walked) (me : ActivityId) : (s.cancel me).Walked := by
  unfold State.cancel
  split
  · next l _ _ => exact (l.walked_cancel me walked).same rfl rfl rfl
  · next c _ => exact (c.walked_cancel me walked).same rfl rfl rfl
  · next d _ => exact (d.walked_cancel me walked).same rfl rfl rfl
  · exact walked

theorem start (walked : s.Walked) (runtime : Bool) : (s.start runtime).1.Walked := by
  unfold State.start
  split_ifs with disabled closed idle
  · exact walked.report rfl
  · exact walked.report rfl
  · exact walked
  · split
    · exact walked
    · exact walked.report rfl
    · split
      · exact walked
      · next moved hm =>
        have opened : s.closed = false := eq_false_of_ne_true closed
        have begun : moved.Walked :=
          walked.move hm (fun _ => opened) rfl rfl fun _ => ⟨opened, nofun⟩
        exact begun.tell [.notice (.started ..), .loopStarted _] rfl rfl rfl rfl

theorem offer (walked : s.Walked) (e : Event) : (s.offer e).1.Walked := by
  unfold State.offer
  split_ifs
  · exact walked.tell [.offered e .rejected, .notice (.refused e.id)] rfl rfl rfl rfl
  · dsimp only
    split <;> exact walked.tell [.offered e .accepted] rfl rfl rfl rfl
  · exact walked.tell [.offered e .full, .notice (.queueFull ..)] rfl rfl rfl rfl

/-- Whatever happens, the reports stay a walk to the phase. -/
theorem run (walked : s.Walked) (actions : List Action) : (s.run actions).Walked := by
  refine State.run_keeps (fun e h => h.offer e) (fun act h => ?_) walked actions
  cases act with
  | start runtime => exact h.start runtime
  | callFlush => exact h.same rfl rfl rfl
  | callShutdown => exact h.same rfl rfl rfl
  | step hs => exact h.step hs
  | @cancel i other => exact h.cancel i
  | elapse millis => exact h.same rfl rfl rfl

end State.Walked

/-- However a publisher is made, it has made no transition. -/
theorem Made.walked (made : Made s) : s.Walked := by
  have hu := made.untouched
  have unmoved : moves s.history = [] := by
    refine List.filterMap_eq_nil_iff.mpr fun o ho => ?_
    have stands := hu.history.subset (List.mem_reverse.mp ho)
    rw [List.mem_singleton.mp stands]
    rfl
  have none : transitions s.history = [] := by rw [transitions, unmoved, List.filterMap_nil]
  refine ⟨?_, ?_, ?_, ?_, ?_⟩
  · rw [none]
    trivial
  · rw [none, unmoved]
    rfl
  · rw [none]
    exact hu.phase
  · rw [none]
    exact fun _ => List.not_mem_nil
  · rw [none]
    exact List.not_mem_nil

/-- In every run of a publisher the reports of transitions are those of a walk from stopped to the
phase that it is in. The loop is started at most once, before everything else, and after that
shutdowns begin and end in turn. -/
theorem Made.walks (made : Made s) (actions : List Action) (t : State)
    (reached : t = s.run actions) :
    moves t.history = (Phase.stopped.walk (transitions t.history)).2 ∧
    t.phase = Phase.stopped.after (transitions t.history) ∧
    ∃ begun rounds, (begun = [] ∨ begun = [.start]) ∧ transitions t.history =
      begun ++ (List.replicate rounds [.stop, .finish]).flatten ++
        if t.phase = .stopping then [.stop] else [] := by
  subst reached
  have walked := made.walked.run actions
  refine ⟨walked.reports, walked.phase, ?_⟩
  rw [walked.phase]
  exact walked.allowed.shape walked.first

end EventRelay.Publisher
