import EventRelay.Proofs.Publisher.Conservation
import EventRelay.Proofs.Publisher.Steps

/-!
# What a collector answers

Every attempt takes its answer from the way to the collector, so that an attempt can only end as one
of these answers ends, or at its limit. If no answer to come is a success, nothing is ever
delivered, whatever is done to the publisher.
-/

namespace EventRelay.Publisher

/-- All answers to come are of a kind. -/
structure Transport.Gives (R : Response → Prop) (t : Transport) : Prop where
  coming : ∀ r ∈ t.coming, R r
  later : R t.later

theorem Transport.Gives.next {R : Response → Prop} {t : Transport} (h : t.Gives R) :
    R t.next.1 ∧ t.next.2.Gives R := by
  unfold Transport.next
  split
  · exact ⟨h.later, h⟩
  · next r rest coming =>
    refine ⟨h.coming r (by simp [coming]), fun x member => ?_, h.later⟩
    exact h.coming x (by simp [coming, member])

/-- A flush cycle waits for no answer of another kind. -/
def Cycle.Expects (R : Response → Prop) : Cycle → Prop
  | .attempting _ _ _ response => R response
  | _ => True

/-- An attempt that gets an answer of a kind can end this way. -/
def Result (R : Response → Prop) (limit : Nat) (result : Ending) : Prop :=
  ∃ r elapsed, R r ∧ r.resultAfter elapsed limit = some result

/-- An observation tells of no other answer. -/
def Observation.Stems (R : Response → Prop) (limit : Nat) : Observation → Prop
  | .answered _ _ result => Result R limit result
  | .notice (.delivered _) => Result R limit .success
  | _ => True

/-- All answers of a publisher, past, present and to come, are of a kind. -/
structure State.Gives (R : Response → Prop) (s : State) : Prop where
  supply : ∃ t, s.transport = some t ∧ t.Gives R
  attempts : ∀ i a c, s.activity? i = some a → a.cycle? = some c → c.Expects R
  told : ∀ o ∈ s.history, o.Stems R s.settings.deliveryTimeout

variable {R : Response → Prop} {s t : State} {me : ActivityId}

namespace State.Gives

/-- What is told in addition tells of answers of the kind. -/
theorem tell (h : s.Gives R) (os : List Observation) (history : t.history = os ++ s.history)
    (stems : ∀ o ∈ os, o.Stems R s.settings.deliveryTimeout) (transport : t.transport = s.transport)
    (activities : t.activities = s.activities) (settings : t.settings = s.settings) :
    t.Gives R := by
  refine ⟨transport ▸ h.supply, fun i a c => ?_, fun o member => ?_⟩
  · rw [activity?, activities]
    exact h.attempts i a c
  · rw [settings]
    rw [history] at member
    exact (List.mem_append.mp member).elim (stems o) (h.told o)

theorem same (h : s.Gives R) (history : t.history = s.history)
    (transport : t.transport = s.transport) (activities : t.activities = s.activities)
    (settings : t.settings = s.settings) : t.Gives R :=
  h.tell [] history (fun _ member => nomatch member) transport activities settings

theorem report (h : s.Gives R) {n : Notice}
    (stems : (Observation.notice n).Stems R s.settings.deliveryTimeout) : (s.report n).Gives R :=
  h.tell [.notice n] rfl (fun _ member => List.mem_singleton.mp member ▸ stems) rfl rfl rfl

theorem put (h : s.Gives R) {a : Activity} (own : ∀ c, a.cycle? = some c → c.Expects R) :
    (s.setActivity me a).Gives R := by
  refine ⟨h.supply, fun i b c found cycle => ?_, h.told⟩
  rcases getElem?_of_set found with ⟨-, rfl⟩ | ⟨-, before⟩
  · exact own c cycle
  · exact h.attempts i b c before cycle

theorem add (h : s.Gives R) {a : Activity} (own : ∀ c, a.cycle? = some c → c.Expects R) :
    (s.addActivity a).Gives R := by
  refine ⟨h.supply, fun i b c found cycle => ?_, h.told⟩
  rcases getElem?_of_append found with ⟨-, rfl⟩ | before
  · exact own c cycle
  · exact h.attempts i b c before cycle

/-- A batch that is handed over gets an answer of the kind. -/
theorem hand (h : s.Gives R) (me : ActivityId) (batch : Envelope) (second : Bool) :
    (s.hand me batch second).1.Gives R ∧ (s.hand me batch second).2.Expects R := by
  obtain ⟨tr, supplied, gives⟩ := h.supply
  obtain ⟨answer, left⟩ := gives.next
  simp only [State.hand, nextResponse, supplied]
  refine ⟨⟨⟨_, rfl, left⟩, h.attempts, fun o member => ?_⟩, answer⟩
  rcases List.mem_cons.mp member with rfl | member
  · trivial
  · exact h.told o member

end State.Gives

/-- What a step of a flush cycle leaves of the kind of the answers. -/
def CycleStep.Gives (R : Response → Prop) : CycleStep → Prop
  | .waits => True
  | .goes s c => s.Gives R ∧ c.Expects R
  | .ends s _ => s.Gives R
  | .breaks s => s.Gives R

namespace Cycle

/-- A step of a flush cycle tells of the answer that it was waiting for. -/
theorem gives_of_step {c : Cycle} {retry : Bool} {r : CycleStep} (h : c.step s me retry = r)
    (expects : c.Expects R) (gives : s.Gives R) : r.Gives R := by
  have step := steps_of_step h
  cases step with
  | stay others => trivial
  | pend => trivial
  | pause early => trivial
  | enter free => exact ⟨gives.same rfl rfl rfl rfl, trivial⟩
  | wait taken => exact ⟨gives.same rfl rfl rfl rfl, trivial⟩
  | wake mine => exact ⟨gives, trivial⟩
  | empty nothing => exact gives.same rfl rfl rfl rfl
  | @discard t events queued left taken unsupplied =>
    obtain ⟨tr, supplied, -⟩ := gives.supply
    rw [left] at unsupplied
    exact absurd (supplied.symm.trans unsupplied) (Option.some_ne_none tr)
  | @ship t events queued left taken supplied =>
    subst left
    have drained : (s.drain me).1.Gives R :=
      gives.tell [.drained me _] rfl (by simp [Observation.Stems]) rfl rfl rfl
    exact drained.hand me _ false
  | @deliver batch second begun response answer =>
    have result : Result R s.settings.deliveryTimeout .success := ⟨response, _, expects, answer⟩
    exact gives.tell [.notice (.delivered _), .answered me _ .success] rfl
      (by simp [Observation.Stems, result]) rfl rfl rfl
  | @retry batch begun response e answer allowed t told =>
    subst told
    have result : Result R s.settings.deliveryTimeout (.failure e) := ⟨response, _, expects, answer⟩
    exact ⟨gives.tell [.notice (.retrying ..), .answered me _ (.failure e)] rfl
      (by simp [Observation.Stems, result]) rfl rfl rfl, trivial⟩
  | @drop batch second begun response e answer last =>
    have result : Result R s.settings.deliveryTimeout (.failure e) := ⟨response, _, expects, answer⟩
    exact gives.tell [.notice (.dropped ..), .answered me _ (.failure e)] rfl
      (by simp [Observation.Stems, result]) rfl rfl rfl
  | @breakDown batch second begun response answer =>
    have result : Result R s.settings.deliveryTimeout .breakdown := ⟨response, _, expects, answer⟩
    exact gives.tell [.notice (.abandoned ..), .answered me _ .breakdown] rfl
      (by simp [Observation.Stems, result]) rfl rfl rfl
  | resume due => exact gives.hand me _ true

theorem gives_cancel (c : Cycle) (me : ActivityId) (gives : s.Gives R) :
    (c.cancel s me).Gives R := by
  cases c with
  | arriving => exact gives
  | waiting => exact gives.same rfl rfl rfl rfl
  | admitted => exact gives.same rfl rfl rfl rfl
  | attempting => exact (gives.report (n := .abandoned _ _) trivial).same rfl rfl rfl rfl
  | pausing => exact (gives.report (n := .abandoned _ _) trivial).same rfl rfl rfl rfl

end Cycle

namespace Loop

private theorem gives_takeBranch (gives : s.Gives R) (me : ActivityId) (b : Branch) :
    (s.toss.2.takeBranch me b).Gives R := by
  unfold State.toss
  split <;> cases b <;> exact gives.same rfl rfl rfl rfl

/-- A step of the loop keeps the kind of the answers. -/
theorem gives_of_step {l : Loop} (step : l.Steps s me t)
    (expects : ∀ c, (Activity.loop l false).cycle? = some c → c.Expects R) (gives : s.Gives R) :
    t.Gives R := by
  have exits {u : State} (h : u.Gives R) : (u.exitLoop me).Gives R :=
    (h.report (n := .loopExited) trivial).put fun _ h => nomatch h
  cases step with
  | create => exact gives.put fun _ h => nomatch h
  | exit shut => exact exits gives
  | park up => exact gives.put fun _ h => nomatch h
  | leave ready => exact exits (gives_takeBranch gives me .shutdown)
  | wake ready => exact (gives_takeBranch gives me .wake).put fun _ h => nomatch h
  | tick ready => exact (gives_takeBranch gives me .tick).put fun _ h => nomatch h
  | join ready absent => exact gives.same rfl rfl rfl rfl
  | rest shut => exact gives.put fun _ h => nomatch h
  | flush up =>
    refine gives.put fun c h => ?_
    cases h
    trivial
  | @goes tick c c' t h =>
    obtain ⟨after, own⟩ := Cycle.gives_of_step h (expects c rfl) gives
    refine after.put fun c h => ?_
    cases h
    exact own
  | @done tick c t o h short =>
    exact State.Gives.put (Cycle.gives_of_step h (expects c rfl) gives) fun _ h => nomatch h
  | @more tick c t o h long =>
    exact State.Gives.put (Cycle.gives_of_step h (expects c rfl) gives) fun _ h => nomatch h
  | @breaks tick c t h =>
    exact State.Gives.put (Cycle.gives_of_step h (expects c rfl) gives) fun _ h => nomatch h

theorem gives_cancel (l : Loop) (me : ActivityId) (gives : s.Gives R) :
    (l.cancel s me).Gives R := by
  cases l with
  | parked tick => exact gives.same rfl rfl rfl rfl
  | flushing tick c => exact c.gives_cancel me gives
  | _ => exact gives

end Loop

namespace Shutdown

private theorem gives_move {tr : Transition} (moved : s.move? tr = some t) (gives : s.Gives R) :
    t.Gives R := by
  unfold State.move? at moved
  obtain ⟨p, -, rfl⟩ := Option.map_eq_some_iff.mp moved
  exact gives.tell [.notice (.moved ..)] rfl (by simp [Observation.Stems]) rfl rfl rfl

/-- A step of a shutdown keeps the kind of the answers. -/
theorem gives_of_step {d : Shutdown} (step : d.Steps s me t)
    (expects : ∀ c, (Activity.shutdown d).cycle? = some c → c.Expects R) (gives : s.Gives R) :
    t.Gives R := by
  have arrives {u : State} (sent lost : Nat) (h : u.Gives R) :
      (u.setShutdown me (.flushing .arriving sent lost)).Gives R := by
    refine h.put fun c own => ?_
    cases own
    trivial
  have closes {u : State} (moved : s.move? .stop = some u) : u.closing.Gives R :=
    (gives_move moved gives).same rfl rfl rfl rfl
  cases step with
  | again refused => exact (gives.report (n := .stopRepeated _) trivial).put fun _ h => nomatch h
  | begin moved alone => exact arrives 0 0 (closes moved)
  | await moved worker => exact (closes moved).put fun _ h => nomatch h
  | join gone => exact arrives 0 0 gives
  | @overdue loop deadline alive late =>
    refine State.Gives.put ?_ fun _ h => nomatch h
    have told : (s.report (.loopOverdue s.settings.shutdownTimeout)).Gives R := gives.report trivial
    unfold State.cancelLoop
    split
    · next l c found =>
      exact told.put fun c' h => told.attempts loop _ c' found (by cases l <;> exact h)
    · exact told
  | joinLate gone => exact arrives 0 0 gives
  | @goes sent lost c c' t h =>
    obtain ⟨after, own⟩ := Cycle.gives_of_step h (expects c rfl) gives
    refine after.put fun c h => ?_
    cases h
    exact own
  | @finish sent lost c t u h moved =>
    have after : t.Gives R := Cycle.gives_of_step h (expects c rfl) gives
    have final : u.Gives R := by
      rw [moved]
      cases hm : t.move? .finish with
      | none => exact after
      | some v => exact gives_move hm after
    exact (final.report (n := .finished ..) trivial).put fun _ h => nomatch h
  | @sent sent lost n c t h => exact arrives _ _ (Cycle.gives_of_step h (expects c rfl) gives)
  | @lost sent lost n c t h => exact arrives _ _ (Cycle.gives_of_step h (expects c rfl) gives)
  | @breaks sent lost c t h =>
    exact State.Gives.put (Cycle.gives_of_step h (expects c rfl) gives) fun _ h => nomatch h

theorem gives_cancel (d : Shutdown) (me : ActivityId) (gives : s.Gives R) :
    (d.cancel s me).Gives R := by
  cases d with
  | flushing c sent lost => exact c.gives_cancel me gives
  | _ => exact gives

end Shutdown

namespace State.Gives

/-- A step of an activity keeps the kind of the answers. -/
theorem step (gives : s.Gives R) (h : s.step? me = some t) : t.Gives R := by
  have step := steps_of_step h
  have expects {a : Activity} (found : s.activity? me = some a) (c : Cycle)
      (own : a.cycle? = some c) : c.Expects R := gives.attempts me a c found own
  cases step with
  | @cut l found => exact (l.gives_cancel me gives).put fun _ h => nomatch h
  | loop found step => exact Loop.gives_of_step step (expects found) gives
  | @goes c c' t found hc =>
    obtain ⟨after, own⟩ := Cycle.gives_of_step hc (expects found c rfl) gives
    refine after.put fun c h => ?_
    cases h
    exact own
  | @ends c o t found hc =>
    exact State.Gives.put (Cycle.gives_of_step hc (expects found c rfl) gives) fun _ h => nomatch h
  | @breaks c t found hc =>
    exact State.Gives.put (Cycle.gives_of_step hc (expects found c rfl) gives) fun _ h => nomatch h
  | shutdown found step => exact Shutdown.gives_of_step step (expects found) gives

theorem cancel (gives : s.Gives R) (me : ActivityId) : (s.cancel me).Gives R := by
  unfold State.cancel
  split
  · next l _ _ => exact (l.gives_cancel me gives).put fun _ h => nomatch h
  · next c _ => exact (c.gives_cancel me gives).put fun _ h => nomatch h
  · next d _ => exact (d.gives_cancel me gives).put fun _ h => nomatch h
  · exact gives

theorem start (gives : s.Gives R) (runtime : Bool) : (s.start runtime).1.Gives R := by
  unfold State.start
  split_ifs with disabled closed idle
  · exact gives.report trivial
  · exact gives.report trivial
  · exact gives
  · split
    · exact gives
    · exact gives.report trivial
    · split
      · exact gives
      · next moved hm =>
        have begun : (moved.addActivity (.loop .created false)).Gives R :=
          (Shutdown.gives_move hm gives).add fun _ h => nomatch h
        exact begun.tell [.notice (.started ..), .loopStarted _] rfl (by simp [Observation.Stems])
          rfl rfl rfl

theorem offer (gives : s.Gives R) (e : Event) : (s.offer e).1.Gives R := by
  unfold State.offer
  split_ifs
  · exact gives.tell [.offered e .rejected, .notice (.refused e.id)] rfl
      (by simp [Observation.Stems]) rfl rfl rfl
  · dsimp only
    split <;>
      exact gives.tell [.offered e .accepted] rfl (by simp [Observation.Stems]) rfl rfl rfl
  · exact gives.tell [.offered e .full, .notice (.queueFull ..)] rfl
      (by simp [Observation.Stems]) rfl rfl rfl

/-- Whatever happens, all answers stay of the kind. -/
theorem run (gives : s.Gives R) (actions : List Action) : (s.run actions).Gives R := by
  refine State.run_keeps (fun e h => h.offer e) (fun act h => ?_) gives actions
  cases act with
  | start runtime => exact h.start runtime
  | callFlush =>
    refine h.add fun c own => ?_
    cases own
    trivial
  | callShutdown => exact h.add fun _ own => nomatch own
  | step hs => exact h.step hs
  | @cancel i other => exact h.cancel i
  | elapse millis => exact h.same rfl rfl rfl rfl

end State.Gives

/-- A publisher as it is made has had no answers. -/
theorem Made.gives (made : Made s) {tr : Transport} (supplied : s.transport = some tr)
    (gives : tr.Gives R) : s.Gives R := by
  have hu := made.untouched
  refine ⟨⟨tr, supplied, gives⟩, fun i a c found => ?_, fun o member => ?_⟩
  · rw [State.activity?, hu.activities] at found
    nomatch found
  · rw [List.mem_singleton.mp (hu.history.subset member)]
    trivial

/-- Without a success among the answers nothing is ever delivered. -/
theorem Made.nothing_delivered (made : Made s) {tr : Transport} (supplied : s.transport = some tr)
    (gives : tr.Gives R) (failing : ∀ limit, ¬Result R limit .success) (actions : List Action) :
    (s.run actions).stats.batchesDelivered = 0 ∧ (s.run actions).stats.eventsDelivered = 0 := by
  have after := (made.gives supplied gives).run actions
  have counted := made.counted actions
  have lost : ∀ t ∈ tallies (s.run actions).books.tale, t.delivered = false := by
    intro t member
    obtain ⟨o, told, read⟩ := List.mem_filterMap.mp member
    have stems := after.told o (List.mem_of_mem_filter (List.mem_reverse.mp told))
    unfold Observation.tally? at read
    split at read
    · exact absurd stems (failing _)
    · cases read
      rfl
    · cases read
      rfl
    · cases read
      rfl
    · contradiction
  have none (t : Tally) (member : t ∈ tallies (s.run actions).books.tale) :
      ¬(t.delivered == true) = true := by
    rw [lost t member]
    decide
  constructor
  · rw [counted.batchesDelivered]
    exact List.countP_eq_zero.mpr none
  · rw [counted.delivered, tallied, List.filter_eq_nil_iff.mpr none]
    rfl

end EventRelay.Publisher
