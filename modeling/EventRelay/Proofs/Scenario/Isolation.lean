import EventRelay.Proofs.Relay.Slots
import EventRelay.Proofs.Scenario.Playing

/-!
# Isolation of requests

In whatever order tasks take their steps, a request does not notice the others. Its state and what
is read in it are those of the run in which only the steps under its scope are taken, and events
that are asked for in it carry its own correlation. Through a handle a scope can be cleared, also by
a task that is bound to another scope or to none; such a step counts as one of the scope that it is
addressed to. What the tasks of a scenario do when they are played is one of these orders.
-/

namespace EventRelay.Scenario

open Relay (Deed Move Trace)
open Request (Reading ScopeId)

/-- What was done with the scopes of a relay, seen from each of them. -/
structure Isolated (before : Relay) (done : List Deed) (after : Relay) : Prop where
  /-- The state of a scope is what the moves under that scope alone make of it. -/
  state (i : ScopeId) : after.scopes.get i =
    (before.after (Move.share i (done.map Deed.move))).scopes.get i
  /-- A scope that was there before is what the actions in it make of it, one after the other. -/
  effect (i : ScopeId) (known : i < before.scopes.states.length) : after.scopes.get i =
    (((done.map Deed.move).map Move.action).filter (Relay.Action.concerns i)).foldl
      Relay.Action.effect (before.scopes.get i)
  /-- What is read in a scope is what is read if the moves under that scope alone are made. -/
  told (i : ScopeId) : done.filterMap (Deed.told (some i)) =
    (before.deeds (Move.share i (done.map Deed.move))).filterMap (Deed.told (some i))
  /-- A task works with no scope but its own; others it can only clear. -/
  own : ∀ d ∈ done, Move.Own d.move.scope d.move.action
  /-- Outside any scope all scopes are left as they are, unless one is cleared. -/
  outside : ∀ d ∈ done, d.move.scope = none →
    (∀ i, d.after.scopes.get i = d.before.scopes.get i) ∨
      ∃ i, d.move.action = .finish i ∨ d.move.action = .clear i
  /-- Outside any scope everything that is read is empty, and a claim tells that there is no
  scope. -/
  empty : ∀ d ∈ done, ∀ v, d.told none = some v →
    ∃ op, d.move.action = .perform none op ∧ (v = op.reading .cleared ∨ v = .claimed none)
  /-- An event that a guard asks for in a scope carries the correlation that the scope has then. -/
  asked : ∀ d ∈ done, ∀ i call, d.move.action = .emit (some i) call → ∀ e ∈ d.asked,
    Guards.Carries e (d.before.scopes.get i).correlation

variable {start w : World} {tasks left : Multiset Strand} {done : List Deed}

private theorem mem_of_mem_deeds {d : Deed} {moves : List Move} {r : Relay}
    (h : d ∈ r.deeds moves) : d.move ∈ moves := by
  induction moves generalizing r with
  | nil => contradiction
  | cons m rest ih =>
    rcases List.mem_cons.mp h with rfl | later
    · exact List.mem_cons_self ..
    · exact List.mem_cons_of_mem _ (ih later)

namespace Course

/-- What the steps of a course do with scopes is a trace of the relay. -/
theorem trace (course : Course start tasks done w left) : Trace start.relay done w.relay := by
  induction course with
  | start => exact .start
  | step place _ _ ih => exact .aside (World.takes _ place _).scopes (ih.moves _)
  | close i _ ih => exact ih.move ⟨some i, .finish i⟩
  | leave _ _ ih => exact ih
  | aside keeps _ ih => exact .aside keeps.scopes ih

/-- In a course a task works with no scope but its own. -/
theorem own (course : Course start tasks done w left) :
    ∀ d ∈ done, Move.Own d.move.scope d.move.action := by
  induction course with
  | start => exact List.forall_mem_nil _
  | step place _ _ ih =>
    exact List.forall_mem_append.mpr
      ⟨ih, fun d h => own_of_moves _ place.scope _ _ (mem_of_mem_deeds h)⟩
  | close i _ ih =>
    exact List.forall_mem_append.mpr ⟨ih, List.forall_mem_singleton.mpr (.finish i)⟩
  | leave _ _ ih => exact ih
  | aside _ _ ih => exact ih

end Course

/-- Outside any scope all scopes are left as they are, unless one is cleared. -/
private theorem outside_of_own {d : Deed} (own : Move.Own d.move.scope d.move.action)
    (outside : d.move.scope = none) :
    (∀ i, d.after.scopes.get i = d.before.scopes.get i) ∨
      ∃ i, d.move.action = .finish i ∨ d.move.action = .clear i := by
  rw [outside] at own
  have kept (h : d.move.action.scope? = none) (i : ScopeId) :
      d.after.scopes.get i = d.before.scopes.get i := Relay.get_apply_outside _ h i
  generalize hm : d.move.action = a at own kept
  cases own with
  | create => exact .inl (kept rfl)
  | perform op => exact .inl (kept rfl)
  | emit call => exact .inl (kept rfl)
  | begin bound names headers => contradiction
  | finish i => exact .inr ⟨i, .inl rfl⟩
  | clear i => exact .inr ⟨i, .inr rfl⟩

/-- A course leaves requests isolated from each other. -/
theorem Course.isolated (course : Course start tasks done w left) :
    Isolated start.relay done w.relay where
  state i := (course.trace.isolated i).1.state
  effect _ := course.trace.effect
  told i := (course.trace.isolated i).2
  own := course.own
  outside d h := outside_of_own (course.own d h)
  empty d _ _ := Relay.told_outside d
  asked _ _ _ _ emits _ := Relay.carries_of_asked emits

/-- What a task is answered when it works with its scope is what the deed of that step tells. -/
theorem told_scoped (w : World) (place : Place) (op : Request.Operation) :
    ∃ v, (w.begin place (.scoped op)).2 = .answered (.read v) ∧
      (w.relay.deeds (w.moves place.scope (.scoped op))).filterMap (Deed.told place.scope) =
        [v] := by
  refine ⟨(w.relay.perform place.scope op).2, rfl, ?_⟩
  simp only [World.moves, Relay.deeds, List.filterMap_cons, Deed.told, if_pos, List.filterMap_nil]

/-- Requests are isolated from each other, in whatever order any number of tasks take their steps,
each bound to a scope or to none. What a task is answered is what is told in its scope, and however
long a scenario is played, its tasks take their steps in one of these orders. -/
theorem requests_are_isolated :
    (∀ {start w tasks left done}, Course start tasks done w left →
      Isolated start.relay done w.relay) ∧
    (∀ (w : World) (place : Place) (op : Request.Operation), ∃ v,
      (w.begin place (.scoped op)).2 = .answered (.read v) ∧
      (w.relay.deeds (w.moves place.scope (.scoped op))).filterMap (Deed.told place.scope) = [v]) ∧
    ∀ (s : Setup) (fuel turns : Nat), ∃ done left,
      Course (.initial s) {⟨none, s.steps⟩} done ((World.initial s).runFor fuel turns) left := by
  refine ⟨Course.isolated, told_scoped, fun s fuel turns => ?_⟩
  obtain ⟨done, course⟩ := s.reached fuel turns
  exact ⟨done, _, course⟩

/-- In a scope a task sets the correlation and reads it. -/
def setting (i : ScopeId) (trace : String) : Strand :=
  ⟨some i, [.scoped (.setCorrelation { trace }), .scoped .readCorrelation]⟩

/-- In a scope a task reads the correlation. -/
def reading (i : ScopeId) : Strand := ⟨some i, [.scoped .readCorrelation]⟩

/-- A task enters a named scope, sets the correlation there and reads it. -/
def entering (name trace : String) : Strand :=
  ⟨none, [.scope name (setting 0 trace).todo]⟩

/-- Two tasks enter scopes, both set a correlation and then both read it: each reads its own. -/
theorem two_tasks_are_isolated :
    ∃ start done w left,
      Course start (entering "a" "first" ::ₘ entering "b" "second" ::ₘ 0) done w left ∧
      Isolated start.relay done w.relay ∧
      done.filterMap (Deed.told (some 0)) = [.nothing, .correlation { trace := "first" }] ∧
      done.filterMap (Deed.told (some 1)) = [.nothing, .correlation { trace := "second" }] := by
  have c₀ : Course { relay := Relay.unused }
    (entering "a" "first" ::ₘ entering "b" "second" ::ₘ 0) [] _ _ := .start
  have c₁ := Course.leave _ (.step ⟨0, none, true⟩ rfl c₀)
  have c₂ := Course.leave _ (.step ⟨1, none, true⟩
    (Multiset.cons_swap (setting 0 "first") (entering "b" "second") 0) c₁)
  have c₃ := Course.step ⟨0, some 0, true⟩
    (Multiset.cons_swap (setting 1 "second") (setting 0 "first") 0) c₂
  have c₄ := Course.step ⟨1, some 1, true⟩
    (Multiset.cons_swap (reading 0) (setting 1 "second") 0) c₃
  have c₅ := Course.step ⟨0, some 0, true⟩ (Multiset.cons_swap (reading 1) (reading 0) 0) c₄
  have c₆ := Course.step ⟨1, some 1, true⟩
    (Multiset.cons_swap ⟨some 0, []⟩ (reading 1) 0) c₅
  exact ⟨_, _, _, _, c₆, requests_are_isolated.1 c₆, rfl, rfl⟩

end EventRelay.Scenario
