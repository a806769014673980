import Mathlib.Data.List.Perm.Basic
import Mathlib.Tactic.Abel
import EventRelay.Proofs.Scenario.Interleaving

/-!
# Playing is a course

However the tasks of a scenario get their turns, and however far each of them is played, what they
do is a course: it starts with the steps of the scenario outside any scope, and what is left of it
are the strands of the tasks. While a task is played its own strands are kept apart from those of
the others.
-/

namespace EventRelay.Scenario

open Request (ScopeId)

/-- The strands of all tasks. -/
def World.strands (w : World) : Multiset Strand := (w.tasks.map Task.strands).sum

/-- The strands of the other tasks. -/
def World.others (w : World) (t : TaskId) : Multiset Strand :=
  ((w.tasks.eraseIdx t).map Task.strands).sum

/-- The strands that a thread has left. -/
def Progress.strands (ambient : Option ScopeId) : Progress → Multiset Strand
  | .waits t => t.strands ambient
  | .ready _ => {⟨ambient, []⟩}
  | .broken _ => 0

/-- The strands that a step has left. -/
def StepProgress.strands (ambient : Option ScopeId) : StepProgress → Multiset Strand
  | .waits r => r.strands ambient
  | _ => 0

/-- While a task is played, what is left of a course are its own strands and those of the others. -/
structure Playing (start : World) (tasks : Multiset Strand) (t : TaskId) (task : Task) (w : World)
    (own : Multiset Strand) : Prop where
  /-- The task is the one that was started under that number. -/
  known : w.tasks[t]? = some task
  /-- What has been done so far is a course. -/
  course : ∃ done, Course start tasks done w (own + w.others t)

variable {start w v : World} {tasks own more : Multiset Strand} {t : TaskId} {task : Task}

namespace World

theorem quiet_look (w : World) (a : Answer) : w.Quiet (w.look a).1 := ⟨⟨rfl, rfl, rfl, rfl⟩, rfl⟩

theorem quiet_defer (w : World) (place : Place) : w.Quiet (w.defer place) := by
  unfold defer
  split
  · exact ⟨⟨rfl, rfl, rfl, rfl⟩, rfl⟩
  · exact .refl w

theorem quiet_awaitCalm (w : World) (place : Place) : w.Quiet (w.awaitCalm place) := by
  unfold awaitCalm
  split
  · exact ⟨⟨rfl, rfl, rfl, rfl⟩, rfl⟩
  · exact .refl w

theorem quiet_calm (w : World) (calm : Bool) : w.Quiet { w with calm } :=
  ⟨⟨rfl, rfl, rfl, rfl⟩, rfl⟩

theorem quiet_scheduleAll (w : World) (ts : List TaskId) : w.Quiet (ts.foldl schedule w) :=
  List.foldlRecOn ts _ (.refl w) fun v quiet t _ => quiet.trans (v.quiet_schedule t)

/-- Marking a task as one that is to run leaves the relay as it is. -/
theorem relay_schedule (w : World) (t : TaskId) : (w.schedule t).relay = w.relay := by
  unfold schedule
  split
  · rfl
  · split <;> rfl

theorem relay_scheduleAll (w : World) (ts : List TaskId) :
    (ts.foldl schedule w).relay = w.relay := by
  induction ts generalizing w with
  | nil => rfl
  | cons t rest ih => exact (ih (w.schedule t)).trans (w.relay_schedule t)

/-- A jump of the clock has nothing to do with scopes. -/
theorem quiet_jump (w : World) (time : Nat) : w.Quiet (w.jump time) :=
  (w.quiet_setPublisher _).trans (quiet_wake ..)

section Turns

variable {P : World → Prop} {fuel : Nat}
  (marks : ∀ {w v : World}, P w → w.Quiet v → v.relay = w.relay → P v)
  (jumps : ∀ (w : World) (time : Nat), P w → P (w.jump time))
  (runs : ∀ (w : World) (t : TaskId), P w → P (w.runTask fuel t))

include marks jumps runs

/-- A turn keeps what is kept when a task runs, when the clock jumps, and when it is noted who is to
run. -/
private theorem turn_keeps (h : P w) (turn : w.turn? fuel = some v) : P v := by
  unfold turn? at turn
  -- Each turn first notes who has run.
  split at turn
  · cases turn
    refine runs _ 0 ?_
    exact marks h ⟨⟨rfl, rfl, rfl, rfl⟩, rfl⟩ rfl
  · split at turn
    · cases turn
      refine runs _ _ ?_
      exact marks h ⟨⟨rfl, rfl, rfl, rfl⟩, rfl⟩ rfl
    · dsimp only at turn
      split at turn
      · cases turn
        refine marks ?_ (quiet_scheduleAll _ _) (relay_scheduleAll _ _)
        exact marks h ⟨⟨rfl, rfl, rfl, rfl⟩, rfl⟩ rfl
      · split at turn
        · cases turn
          exact marks h ⟨⟨rfl, rfl, rfl, rfl⟩, rfl⟩ rfl
        · split at turn
          · cases turn
            refine marks (runs _ _ ?_) (quiet_calm _ false) rfl
            exact marks h ⟨⟨rfl, rfl, rfl, rfl⟩, rfl⟩ rfl
          · obtain ⟨time, _, rfl⟩ := Option.map_eq_some_iff.mp turn
            refine jumps _ time ?_
            exact marks h ⟨⟨rfl, rfl, rfl, rfl⟩, rfl⟩ rfl

/-- However long a scenario is played, it keeps what its turns keep. -/
theorem runFor_keeps (h : P w) (turns : Nat) : P (w.runFor fuel turns) := by
  induction turns generalizing w with
  | zero => exact h
  | succ turns ih =>
    unfold runFor
    split
    · exact h
    · split
      · exact h
      · next turn => exact ih (turn_keeps marks jumps runs h turn)

end Turns

end World

namespace Playing

/-- What has nothing to do with scopes or tasks does not matter. -/
theorem quiet (h : Playing start tasks t task w own) (quiet : w.Quiet v) :
    Playing start tasks t task v own := by
  obtain ⟨done, course⟩ := h.course
  refine ⟨quiet.tasks ▸ h.known, done, ?_⟩
  rw [World.others, quiet.tasks]
  exact .aside quiet.toKeeps course

/-- A request ends. -/
theorem close (h : Playing start tasks t task w own) (i : ScopeId) :
    Playing start tasks t task (w.endRequest i) own := by
  obtain ⟨done, course⟩ := h.course
  exact ⟨h.known, _, .close i course⟩

/-- Strands are cut off. -/
theorem drop (h : Playing start tasks t task w (more + own)) :
    Playing start tasks t task w own := by
  induction more using Multiset.induction with
  | empty => rwa [zero_add] at h
  | cons strand rest ih =>
    refine ih ⟨h.known, ?_⟩
    obtain ⟨done, course⟩ := h.course
    rw [Multiset.cons_add, Multiset.cons_add] at course
    exact ⟨done, .leave strand course⟩

/-- A task that is at its end has no strands. -/
theorem ended (h : Playing start tasks t task w own) : Playing start tasks t task w (0 + own) :=
  (zero_add own).symm ▸ h

/-- The strands of a task are kept apart. -/
theorem parted {first : Multiset Strand} (h : Playing start tasks t task w ((first + more) + own)) :
    Playing start tasks t task w (first + (more + own)) := add_assoc first more own ▸ h

/-- The strands of a task are kept together. -/
theorem joined {first : Multiset Strand} (h : Playing start tasks t task w (first + (more + own))) :
    Playing start tasks t task w ((first + more) + own) := add_assoc first more own ▸ h

/-- The order in which the strands of a task are kept does not matter. -/
theorem swap {first : Multiset Strand} (h : Playing start tasks t task w (first + (more + own))) :
    Playing start tasks t task w (more + (first + own)) := add_left_comm first more own ▸ h

/-- The strand of a thread is kept beside those of the step that it is in. -/
theorem beside {strand : Strand} (h : Playing start tasks t task w ((strand ::ₘ more) + own)) :
    Playing start tasks t task w (more + ({strand} + own)) :=
  (Multiset.singleton_add strand more ▸ h).parted.swap

/-- The strand of a thread is kept together with those of the step that it is in. -/
theorem within {strand : Strand} (h : Playing start tasks t task w (more + ({strand} + own))) :
    Playing start tasks t task w ((strand ::ₘ more) + own) :=
  Multiset.singleton_add strand more ▸ h.swap.joined

/-- The task takes its next step. -/
theorem step {s : Step} {todo : List Step} (place : Place)
    (h : Playing start tasks t task w ({⟨place.scope, s :: todo⟩} + own)) :
    Playing start tasks t task (w.take place s).1
      ((w.take place s).2 + ({⟨place.scope, todo⟩} + own)) := by
  obtain ⟨new, appended, spawned⟩ := (w.takes place s).tasks
  obtain ⟨known, -⟩ := List.getElem?_eq_some_iff.mp h.known
  obtain ⟨done, course⟩ := h.course
  have others : (w.take place s).1.others t = s.spawned place.scope + w.others t := by
    rw [World.others, appended, List.eraseIdx_append_of_lt_length known, List.map_append,
      List.sum_append, spawned, add_comm]
    rfl
  rw [add_assoc, Multiset.singleton_add] at course
  refine ⟨?_, done ++ w.relay.deeds (w.moves place.scope s), ?_⟩
  · rw [appended, List.getElem?_append_left known]
    exact h.known
  · have parts : (w.take place s).2 + ({⟨place.scope, todo⟩} + own) + (w.take place s).1.others t =
        ⟨place.scope, todo⟩ ::ₘ
          ((w.take place s).2 + (s.spawned place.scope + (own + w.others t))) := by
      rw [others, ← Multiset.singleton_add]
      abel
    exact parts ▸ course.step place rfl

mutual

/-- Cutting off a step under way is part of a course. -/
theorem cancel_running {w : World} (r : Running) (h : Playing start tasks t task w own) :
    Playing start tasks t task (r.cancel w) own := by
  cases r with
  | flushing i => exact h.quiet (w.quiet_setPublisher _)
  | stopping i => exact h.quiet (w.quiet_setPublisher _)
  | inRequest i body => exact (cancel_thread body h).close i
  | inScope scope body => exact cancel_thread body h
  | limited deadline body => exact cancel_thread body h
  | interleaved bodies => exact cancel_all bodies h
  | _ => exact h

/-- Cutting off a thread is part of a course. -/
theorem cancel_thread {w : World} (body : Thread) (h : Playing start tasks t task w own) :
    Playing start tasks t task (body.cancel w) own := by
  cases body with
  | idle todo results => exact h
  | busy todo results began r => exact cancel_running r h

/-- Cutting off several threads is part of a course. -/
theorem cancel_all {w : World} (bodies : List Thread) (h : Playing start tasks t task w own) :
    Playing start tasks t task (cancelAll w bodies) own := by
  cases bodies with
  | nil => exact h
  | cons body rest => exact cancel_all rest (cancel_thread body h)

end

end Playing

/-- What the player does with a fuel is part of a course. -/
structure Plays (start : World) (tasks : Multiset Strand) (task : Task) (fuel : Nat) : Prop where
  /-- So it is for threads. -/
  thread (w : World) (place : Place) (body : Thread) (own : Multiset Strand)
    (h : Playing start tasks place.task task w (body.strands place.scope + own)) :
    Playing start tasks place.task task (body.play fuel w place).1
      ((body.play fuel w place).2.strands place.scope + own)
  /-- So it is for steps under way. -/
  running (w : World) (place : Place) (r : Running) (own : Multiset Strand)
    (h : Playing start tasks place.task task w (r.strands place.scope + own)) :
    Playing start tasks place.task task (r.play fuel w place).1
      ((r.play fuel w place).2.strands place.scope + own)
  /-- So it is for several threads. -/
  all (w : World) (place : Place) (bodies : List Thread) (own : Multiset Strand)
    (h : Playing start tasks place.task task w (allStrands place.scope bodies + own)) :
    Playing start tasks place.task task (playAll fuel w place bodies).1
      (((playAll fuel w place bodies).2.elim 0 (allStrands place.scope)) + own)

namespace Plays

/-- Without fuel nothing is played. -/
theorem zero : Plays start tasks task 0 where
  thread _ _ _ _ h := h
  running _ _ _ _ h := h
  all _ _ _ _ h := h

variable {fuel : Nat} {place : Place}

/-- A step has its answer, and the thread goes on. -/
private theorem answered (plays : Plays start tasks task fuel) {todo : List Step} (a : Answer)
    (results : List Result)
    (h : Playing start tasks place.task task w ({⟨place.scope, todo⟩} + own)) :
    Playing start tasks place.task task
      (Thread.play fuel (w.look a).1 place (.idle todo ((w.look a).2 :: results))).1
      ((Thread.play fuel (w.look a).1 place (.idle todo ((w.look a).2 :: results))).2.strands
        place.scope + own) :=
  plays.thread _ place (.idle todo _) own (h.quiet (w.quiet_look a))

/-- A step that may wait begins. -/
private theorem begins (plays : Plays start tasks task fuel) {s : Step} {todo : List Step}
    (results : List Result) (waits : ∀ name body, s ≠ .scopeSync name body)
    (h : Playing start tasks place.task task w ({⟨place.scope, s :: todo⟩} + own)) :
    Playing start tasks place.task task
      (Thread.play (fuel + 1) w place (.idle (s :: todo) results)).1
      ((Thread.play (fuel + 1) w place (.idle (s :: todo) results)).2.strands place.scope +
        own) := by
  have taken := h.step place
  have begun : w.take place s = ((w.begin place s).1, (w.begin place s).2.strands place.scope) := by
    cases s with
    | scopeSync name body => exact absurd rfl (waits name body)
    | _ => rfl
  rw [begun] at taken
  rw [Thread.play]
  · generalize w.begin place s = result at taken ⊢
    rcases result with ⟨v, a | r | _⟩
    · exact plays.answered a results taken.drop
    · -- Only a step that lets others run is not played on at once.
      cases r with
      | yielded => exact (taken.quiet (v.quiet_defer place)).within
      | _ => exact plays.thread v place (.busy todo results v.now _) own taken.within
    · exact taken.drop.drop.ended
  · exact waits

/-- Steps are taken in a scope without waiting. -/
private theorem synchronous (plays : Plays start tasks task fuel) (name : String)
    (body todo : List Step) (results : List Result)
    (h : Playing start tasks place.task task w
      ({⟨place.scope, .scopeSync name body :: todo⟩} + own)) :
    Playing start tasks place.task task
      (Thread.play (fuel + 1) w place (.idle (.scopeSync name body :: todo) results)).1
      ((Thread.play (fuel + 1) w place (.idle (.scopeSync name body :: todo) results)).2.strands
        place.scope + own) := by
  simp only [Thread.play]
  have inside := plays.thread (w.scopeNamed name).1
    { place with scope := some (w.scopeNamed name).2, mayWait := false } (.idle body []) _
    (h.step place)
  generalize Thread.play fuel _ _ _ = result at inside ⊢
  -- Inside the scope is what the steps have left, and beside it the rest of the thread.
  rcases result with ⟨v, body | rs | rs⟩
  · exact plays.answered _ results ((inside.cancel_thread body).drop.quiet (World.quiet_wake ..))
  · exact plays.answered _ results (inside.drop.quiet (World.quiet_wake ..))
  · exact (inside.drop.drop.quiet (World.quiet_wake ..)).ended

/-- A thread goes on with the step that it is in. -/
private theorem continues (plays : Plays start tasks task fuel) (todo : List Step)
    (results : List Result) (began : Nat) (r : Running)
    (h : Playing start tasks place.task task w
      ((⟨place.scope, todo⟩ ::ₘ r.strands place.scope) + own)) :
    Playing start tasks place.task task
      (Thread.play (fuel + 1) w place (.busy todo results began r)).1
      ((Thread.play (fuel + 1) w place (.busy todo results began r)).2.strands place.scope +
        own) := by
  simp only [Thread.play]
  have came := plays.running w place r _ h.beside
  generalize Running.play fuel w place r = result at came ⊢
  rcases result with ⟨v, next | a | a | _⟩
  · exact came.within
  · dsimp only
    split
    · exact (came.quiet (v.quiet_awaitCalm place)).within
    · exact plays.answered a results came.drop
  · exact plays.answered a results came.drop
  · exact came.drop.drop.ended

/-- A step under way is played. -/
private theorem proceeds (plays : Plays start tasks task fuel) (r : Running)
    (h : Playing start tasks place.task task w (r.strands place.scope + own)) :
    Playing start tasks place.task task (Running.play (fuel + 1) w place r).1
      ((Running.play (fuel + 1) w place r).2.strands place.scope + own) := by
  cases r with
  | sleeping time =>
    simp only [Running.play]
    split <;> exact h
  | yielded => exact h
  | hanging => exact h
  | advancing time =>
    simp only [Running.play]
    split
    · exact h.quiet (w.quiet_awaitCalm place)
    · exact h
  | calming =>
    simp only [Running.play]
    split
    · exact h.quiet (w.quiet_calm false)
    · exact h
  | settling a =>
    simp only [Running.play]
    split
    · exact h.quiet (w.quiet_calm false)
    · exact h
  | flushing i =>
    have moved := (h.quiet (w.quiet_setPublisher (w.publisher.poll i))).quiet
      (World.quiet_wake _ (some place.task))
    simp only [Running.play, World.afterFlush]
    split <;> exact moved
  | stopping i =>
    have moved := (h.quiet (w.quiet_setPublisher (w.publisher.poll i))).quiet
      (World.quiet_wake _ (some place.task))
    simp only [Running.play, World.afterStop]
    split <;> exact moved
  | joining t named =>
    simp only [Running.play, World.afterJoin]
    split <;> exact h
  | inRequest i body =>
    simp only [Running.play]
    have came := plays.thread w { place with scope := some i } body own h
    generalize Thread.play fuel _ _ _ = result at came ⊢
    rcases result with ⟨v, body | rs | rs⟩
    · exact came
    · exact (came.close i).drop.ended
    · exact came.close i
  | inScope scope body =>
    simp only [Running.play]
    have came := plays.thread w { place with scope } body own h
    generalize Thread.play fuel _ _ _ = result at came ⊢
    rcases result with ⟨v, body | rs | rs⟩
    · exact came
    · exact came.drop.ended
    · exact came
  | limited deadline body =>
    simp only [Running.play]
    have came := plays.thread w place body own h
    generalize Thread.play fuel _ _ _ = result at came ⊢
    rcases result with ⟨v, body | rs | rs⟩
    · dsimp only
      split
      · exact ((came.cancel_thread body).quiet (World.quiet_wake ..)).drop.ended
      · exact came
    · exact came.drop.ended
    · exact came
  | interleaved bodies =>
    simp only [Running.play]
    have came := plays.all w place bodies own h
    generalize playAll fuel w place bodies = result at came ⊢
    rcases result with ⟨v, _ | bodies⟩
    · exact came
    · dsimp only
      split
      · exact came.drop.ended
      · exact came

/-- Several threads are played. -/
private theorem proceed (plays : Plays start tasks task fuel) (bodies : List Thread)
    (h : Playing start tasks place.task task w (allStrands place.scope bodies + own)) :
    Playing start tasks place.task task (playAll (fuel + 1) w place bodies).1
      ((playAll (fuel + 1) w place bodies).2.elim 0 (allStrands place.scope) + own) := by
  cases bodies with
  | nil => exact h
  | cons body rest =>
    simp only [playAll]
    have came := plays.thread w place body (allStrands place.scope rest + own) h.parted
    generalize Thread.play fuel w place body = result at came ⊢
    -- The strands of the thread that was played wait beside those of the rest, and the other way.
    rcases result with ⟨v, body | rs | rs⟩
    · have others := plays.all v place rest (body.strands place.scope + own) came.swap
      dsimp only
      generalize playAll fuel v place rest = result at others ⊢
      rcases result with ⟨u, _ | rest⟩
      · exact (others.cancel_thread body).drop.drop.ended
      · exact others.swap.joined
    · have others := plays.all v place rest ({⟨place.scope, []⟩} + own) came.swap
      dsimp only
      generalize playAll fuel v place rest = result at others ⊢
      rcases result with ⟨u, _ | rest⟩
      · exact others.drop.drop.ended
      · exact others.swap.joined
    · exact (came.cancel_all rest).drop.drop.ended

/-- With any fuel what the player does is part of a course. The functions of the player call each
other with one less. -/
theorem all_fuel (start : World) (tasks : Multiset Strand) (task : Task) (fuel : Nat) :
    Plays start tasks task fuel := by
  induction fuel with
  | zero => exact .zero
  | succ fuel plays =>
    refine ⟨fun w place body own h => ?_, fun w place r own h => plays.proceeds r h,
      fun w place bodies own h => plays.proceed bodies h⟩
    cases body with
    | busy todo results began r => exact plays.continues todo results began r h
    | idle todo results =>
      cases todo with
      | nil => exact h
      | cons s todo =>
        cases s with
        | scopeSync name body => exact plays.synchronous name body todo results h
        | _ => exact plays.begins results (fun _ _ => Step.noConfusion) h

end Plays

/-- What has been done so far is a course, and the tasks have what is left of it. -/
def Reached (start : World) (tasks : Multiset Strand) (w : World) : Prop :=
  ∃ done, Course start tasks done w w.strands

namespace Reached

theorem quiet (h : Reached start tasks w) (quiet : w.Quiet v) : Reached start tasks v := by
  obtain ⟨done, course⟩ := h
  refine ⟨done, ?_⟩
  rw [World.strands, quiet.tasks]
  exact .aside quiet.toKeeps course

/-- The strands of all tasks are those of one and those of the others. -/
private theorem strands_eq (known : w.tasks[t]? = some task) :
    w.strands = task.strands + w.others t := by
  obtain ⟨bound, rfl⟩ := List.getElem?_eq_some_iff.mp known
  have split := (List.getElem_cons_eraseIdx_perm bound).map Task.strands
  exact split.sum_eq.symm.trans List.sum_cons

/-- A task begins to be played. -/
private theorem playing (h : Reached start tasks w) (known : w.tasks[t]? = some task) :
    Playing start tasks t task w task.strands := by
  obtain ⟨done, course⟩ := h
  exact ⟨known, done, strands_eq known ▸ course⟩

/-- A task is played no further. -/
private theorem of_playing (h : Playing start tasks t task w own) {body : TaskBody}
    (left : own = Task.strands ⟨task.scope, body⟩) : Reached start tasks (w.setTask t body) := by
  obtain ⟨done, course⟩ := h.course
  refine ⟨done, ?_⟩
  have known : (w.setTask t body).tasks[t]? = some ⟨task.scope, body⟩ := by
    rw [World.setTask, List.getElem?_modify_eq, h.known]
    rfl
  have others : (w.setTask t body).others t = w.others t := by
    rw [World.others, World.setTask, List.eraseIdx_modify_of_eq]
    rfl
  have keeps : w.Keeps (w.setTask t body) := ⟨rfl, rfl, rfl, rfl⟩
  rw [strands_eq known, others, ← left]
  exact .aside keeps course

/-- A task has its turn. -/
theorem runTask (h : Reached start tasks w) (fuel : Nat) (t : TaskId) :
    Reached start tasks (w.runTask fuel t) := by
  unfold World.runTask
  split
  · next scope i known =>
    have polled := h.quiet (w.quiet_setPublisher (w.publisher.poll i))
    refine Reached.quiet ?_ (World.quiet_wake ..)
    split
    · exact of_playing (polled.playing known) rfl
    · exact polled
  · next scope body known =>
    have own : Playing start tasks t ⟨scope, .thread body⟩ w (body.strands scope + 0) :=
      (add_zero (body.strands scope)).symm ▸ h.playing known
    have came := (Plays.all_fuel start tasks _ fuel).thread w { task := t, scope } body 0 own
    generalize Thread.play fuel w _ body = result at came ⊢
    rcases result with ⟨v, body | rs | rs⟩
    · exact (of_playing came (add_zero _)).quiet (World.quiet_wake ..)
    · exact (of_playing came.drop rfl).quiet (World.quiet_wake ..)
    · exact (of_playing came.drop rfl).quiet (World.quiet_wake ..)
  · exact h

/-- Turns are taken, one after the other. -/
theorem runFor (h : Reached start tasks w) (fuel turns : Nat) :
    Reached start tasks (w.runFor fuel turns) :=
  World.runFor_keeps (fun h marks _ => h.quiet marks) (fun w time h => h.quiet (w.quiet_jump time))
    (fun _ t h => h.runTask fuel t) h turns

end Reached

/-- What the tasks of a scenario do is a course that starts with its steps, bound to no scope. -/
theorem Setup.reached (s : Setup) (fuel turns : Nat) :
    Reached (.initial s) {⟨none, s.steps⟩} ((World.initial s).runFor fuel turns) :=
  Reached.runFor ⟨[], .start⟩ fuel turns

end EventRelay.Scenario
