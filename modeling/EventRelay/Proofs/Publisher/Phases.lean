import EventRelay.Proofs.Publisher.Lifecycle

/-!
# What the phases promise

The phase of a publisher, the worker and the activities fit each other in every reachable state. A
loop lives only while its publisher runs or is stopping; a running publisher is open and knows its
loop; a shutdown in progress is the only one, and every loop that still lives is the one for which
it waits. A closed publisher without a loop remains one.
-/

namespace EventRelay.Publisher

open Relation

namespace Lifecycle

variable {l l' : Lifecycle} {me i : ActivityId} {p q : Part}

/-- Phase, worker and activities fit each other. -/
structure Sound (l : Lifecycle) : Prop where
  /-- A running publisher is open and has a worker. -/
  running : l.phase = .running → l.closed = false ∧ l.worker ≠ none
  /-- Without running there is no worker. -/
  resting : l.phase ≠ .running → l.worker = none
  /-- A stopping publisher is closed. -/
  closing : l.phase = .stopping → l.closed = true
  /-- A loop does not live in a stopped publisher, and is the worker of a running one. -/
  loops : ∀ {i : ActivityId}, l.parts[i]? = some .loop →
    l.phase ≠ .stopped ∧ (l.phase = .running → l.worker = some i)
  /-- Every loop that lives is the one for which a shutdown in progress waits. -/
  awaited : ∀ {i : ActivityId} {awaits : Option ActivityId}, l.parts[i]? = some (.stopping awaits) →
    l.phase = .stopping ∧ ∀ j, l.parts[j]? = some .loop → awaits = some j
  /-- Only one shutdown is in progress. -/
  alone : ∀ {i j : ActivityId} {a a' : Option ActivityId}, l.parts[i]? = some (.stopping a) →
    l.parts[j]? = some (.stopping a') → i = j

namespace Sound

private theorem join (h : l.Sound) (call : p = .flush ∨ p = .called) :
    Sound { l with parts := l.parts ++ [p] } := by
  have old {i : ActivityId} {q : Part} (hi : (l.parts ++ [p])[i]? = some q)
      (hq : q ≠ .flush ∧ q ≠ .called) : l.parts[i]? = some q := by
    rcases getElem?_of_append hi with ⟨_, rfl⟩ | hi
    · exact (call.elim hq.1 hq.2).elim
    · exact hi
  refine ⟨h.running, h.resting, h.closing, fun hi => h.loops (old hi (by simp)),
    fun hi => ⟨(h.awaited (old hi (by simp))).1, fun j hj => ?_⟩,
    fun hi hj => h.alone (old hi (by simp)) (old hj (by simp))⟩
  exact (h.awaited (old hi (by simp))).2 j (old hj (by simp))

private theorem launch (h : l.Sound) (opened : l.closed = false) (allowed : l.phase = .stopped) :
    Sound { l with
      phase := .running, worker := some l.parts.length, parts := l.parts ++ [.loop] } := by
  have quiet {i : ActivityId} {awaits : Option ActivityId}
      (hi : l.parts[i]? = some (.stopping awaits)) : False := by
    have hp := (h.awaited hi).1
    rw [allowed] at hp
    contradiction
  refine ⟨fun _ => ⟨opened, Option.some_ne_none _⟩, fun hp => absurd rfl hp,
    fun hp => by contradiction, fun {i} hi => ⟨by simp, fun _ => ?_⟩, fun {i awaits} hi => ?_,
    fun {i j a a'} hi _ => ?_⟩
  · rcases getElem?_of_append hi with ⟨he, _⟩ | hi
    · rw [he]
    · exact absurd allowed (h.loops hi).1
  · rcases getElem?_of_append hi with ⟨_, hp⟩ | hi
    · contradiction
    · exact (quiet hi).elim
  · rcases getElem?_of_append hi with ⟨_, hp⟩ | hi
    · contradiction
    · exact (quiet hi).elim

private theorem leave (h : l.Sound) (c : Closing) : Sound (l.put me (.ended c)) where
  running := h.running
  resting := h.resting
  closing := h.closing
  loops := by
    intro i hi
    rcases getElem?_of_set hi with ⟨_, hp⟩ | ⟨_, hi⟩
    · contradiction
    · exact h.loops hi
  awaited := by
    intro i awaits hi
    rcases getElem?_of_set hi with ⟨_, hp⟩ | ⟨_, hi⟩
    · contradiction
    · refine ⟨(h.awaited hi).1, fun j hj => ?_⟩
      rcases getElem?_of_set hj with ⟨_, hp⟩ | ⟨_, hj⟩
      · contradiction
      · exact (h.awaited hi).2 j hj
  alone := by
    intro i j a a' hi hj
    rcases getElem?_of_set hi with ⟨_, hp⟩ | ⟨_, hi⟩
    · contradiction
    · rcases getElem?_of_set hj with ⟨_, hp⟩ | ⟨_, hj⟩
      · contradiction
      · exact h.alone hi hj

private theorem stop (h : l.Sound) (allowed : l.phase ≠ .stopping) :
    Sound { l.put me (.stopping l.worker) with
      phase := .stopping, closed := true, worker := none } := by
  have quiet {i : ActivityId} {awaits : Option ActivityId}
      (hi : l.parts[i]? = some (.stopping awaits)) : False :=
    allowed (h.awaited hi).1
  refine ⟨fun hp => by contradiction, fun _ => rfl, fun _ => rfl,
    fun {i} _ => ⟨by simp, fun hp => by contradiction⟩, fun {i awaits} hi => ⟨rfl, fun j hj => ?_⟩,
    fun {i j a a'} hi hj => ?_⟩
  · rcases getElem?_of_set hj with ⟨_, hp⟩ | ⟨_, hj⟩
    · contradiction
    · obtain ⟨alive, known⟩ := h.loops hj
      rcases getElem?_of_set hi with ⟨_, hp⟩ | ⟨_, hi⟩
      · cases hp
        refine known ?_
        cases hp : l.phase with
        | stopped => exact absurd hp alive
        | running => rfl
        | stopping => exact absurd hp allowed
      · exact (quiet hi).elim
  · rcases getElem?_of_set hi with ⟨he, _⟩ | ⟨_, hi⟩
    · rcases getElem?_of_set hj with ⟨he', _⟩ | ⟨_, hj⟩
      · rw [he, he']
      · exact (quiet hj).elim
    · exact (quiet hi).elim

private theorem joined (h : l.Sound) {loop : ActivityId} {c : Closing}
    (entry : l.parts[me]? = some (.stopping (some loop)))
    (gone : l.parts[loop]? = some (.ended c)) : Sound (l.put me (.stopping none)) := by
  have dead {j : ActivityId} (hj : l.parts[j]? = some .loop) : False := by
    have he := Option.some.inj ((h.awaited entry).2 j hj)
    rw [he, hj] at gone
    cases gone
  have mine {i : ActivityId} {awaits : Option ActivityId}
      (hi : (l.put me (.stopping none)).parts[i]? = some (.stopping awaits)) :
      i = me := by
    rcases getElem?_of_set hi with ⟨he, _⟩ | ⟨_, hi⟩
    · exact he
    · exact h.alone hi entry
  refine ⟨h.running, h.resting, h.closing, fun {i} hi => ?_,
    fun {i awaits} hi => ⟨(h.awaited entry).1, fun j hj => ?_⟩,
    fun {i j a a'} hi hj => (mine hi).trans (mine hj).symm⟩
  · rcases getElem?_of_set hi with ⟨_, hp⟩ | ⟨_, hi⟩
    · contradiction
    · exact (dead hi).elim
  · rcases getElem?_of_set hj with ⟨_, hp⟩ | ⟨_, hj⟩
    · contradiction
    · exact (dead hj).elim

private theorem finish (h : l.Sound) (entry : l.parts[me]? = some (.stopping none)) :
    Sound { l.put me (.ended .stopped) with
      phase := (l.phase.next? .finish).getD l.phase } := by
  obtain ⟨stopping, awaited⟩ := h.awaited entry
  have dead {j : ActivityId} (hj : l.parts[j]? = some .loop) : False := by
    have he := awaited j hj
    contradiction
  have others {i : ActivityId} {awaits : Option ActivityId}
      (hi : (l.put me (.ended .stopped)).parts[i]? = some (.stopping awaits)) : False := by
    rcases getElem?_of_set hi with ⟨_, hp⟩ | ⟨hne, hi⟩
    · contradiction
    · exact hne (h.alone hi entry)
  rw [stopping]
  refine ⟨fun hp => by contradiction, fun _ => h.resting (by rw [stopping]; decide),
    fun hp => by contradiction, fun {i} hi => ?_, fun hi => (others hi).elim,
    fun hi => (others hi).elim⟩
  rcases getElem?_of_set hi with ⟨_, hp⟩ | ⟨_, hi⟩
  · contradiction
  · exact (dead hi).elim

end Sound

/-- Every step keeps phase, worker and activities in accord. -/
theorem Step.sound (step : l.Step l') (h : l.Sound) : l'.Sound := by
  cases step with
  | join call => exact h.join call
  | launch opened allowed => exact h.launch opened allowed
  | move m =>
    cases m with
    | leave => exact h.leave _
    | stop _ allowed => exact h.stop allowed
    | joined entry gone => exact h.joined entry gone
    | finish entry => exact h.finish entry

/-- A closed publisher without a worker and without a loop. -/
structure Done (l : Lifecycle) : Prop where
  /-- It is closed. -/
  closed : l.closed = true
  /-- It has no worker. -/
  worker : l.worker = none
  /-- No loop lives. -/
  loops : ∀ i : ActivityId, l.parts[i]? ≠ some .loop

/-- A closed publisher without a loop remains one. -/
theorem Step.done (step : l.Step l') (h : l.Done) : l'.Done := by
  cases step with
  | join call =>
    refine ⟨h.closed, h.worker, fun i hi => ?_⟩
    rcases getElem?_of_append hi with ⟨_, rfl⟩ | hi
    · rcases call with hp | hp <;> contradiction
    · exact h.loops i hi
  | launch opened =>
    rw [h.closed] at opened
    contradiction
  | move m =>
    have keeps {me : ActivityId} {p : Part} (hne : p ≠ Part.loop) (i : ActivityId) :
        (l.put me p).parts[i]? ≠ some .loop := by
      intro hi
      rcases getElem?_of_set hi with ⟨_, hp⟩ | ⟨_, hi⟩
      · exact hne hp.symm
      · exact h.loops i hi
    cases m with
    | leave => exact ⟨h.closed, h.worker, keeps Part.noConfusion⟩
    | stop => exact ⟨rfl, rfl, keeps Part.noConfusion⟩
    | joined => exact ⟨h.closed, h.worker, keeps Part.noConfusion⟩
    | finish => exact ⟨h.closed, h.worker, keeps Part.noConfusion⟩

/-- A shutdown that has found no loop to wait for is in charge of a publisher without one. -/
theorem Sound.done (h : l.Sound) (entry : l.parts[me]? = some (.stopping none)) : l.Done := by
  obtain ⟨stopping, awaited⟩ := h.awaited entry
  refine ⟨h.closing stopping, h.resting (by rw [stopping]; decide), fun j hj => ?_⟩
  have he := awaited j hj
  contradiction

end Lifecycle

/-- Whatever happens, phase, worker and activities stay in accord. -/
theorem State.sound_of_acts {s t : State} (act : Acts s t) (h : s.lifecycle.Sound) :
    t.lifecycle.Sound := by
  rcases (reflGen_iff _ _ _).mp (lifecycle_of_acts act) with same | step
  · rw [same]
    exact h
  · exact step.sound h

/-- In every reachable state phase, worker and activities fit each other. -/
theorem Made.sound {s : State} (made : Made s) (actions : List Action) :
    (s.run actions).lifecycle.Sound := by
  refine s.lifecycle_run_keeps Lifecycle.Step.sound ?_ actions
  have hu := made.untouched
  have hp : s.lifecycle.phase = .stopped := hu.phase
  have empty (i : ActivityId) : s.lifecycle.parts[i]? = none := by
    rw [State.getElem?_parts, State.activity?, hu.activities]
    rfl
  refine ⟨fun hr => ?_, fun _ => hu.worker, fun hr => ?_, fun hi => ?_, fun hi => ?_, fun hi => ?_⟩
  · rw [hp] at hr
    contradiction
  · rw [hp] at hr
    contradiction
  · rw [empty] at hi
    contradiction
  · rw [empty] at hi
    contradiction
  · rw [empty] at hi
    contradiction

end EventRelay.Publisher
