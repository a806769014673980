import EventRelay.Proofs.Relay.Boundary
import EventRelay.Proofs.Relay.Slots
import EventRelay.Proofs.Scenario.Accounts

/-!
# The end of a request

A request ends with its steps, whether they come to their end or break down, and it ends when they
are cut off, however deep in the steps around it. In each case its scope is empty right after, and a
guard call of a task that is still bound to the scope stays without effect on the sink.
-/

namespace EventRelay.Scenario

open Relay (Deed Move Trace)
open Request (Headers HeaderNames Scope ScopeId)

namespace World

/-- After the end of a request its scope is empty, and the others are as before. -/
theorem scope_endRequest (w : World) (i j : ScopeId) :
    (w.endRequest j).scope i = if i = j then .cleared else w.scope i := by
  by_cases same : i = j
  · rw [if_pos same, same]
    exact Relay.get_put_cleared w.relay.scopes j
  · rw [if_neg same]
    exact w.relay.scopes.get_put_ne _ (Ne.symm same)

/-- A request with a scope of its own begins with the correlation of its headers and nothing
else. -/
theorem begin_request (w : World) (place : Place) {pairs : List (String × List UInt8)}
    {headers : Headers} (legal : Headers.ofList? pairs = some headers) (names : HeaderNames)
    (body : List Step) :
    ∃ v i, w.begin place (.request pairs names body) =
        (v, .started (.inRequest i (.idle body []))) ∧
      v.scope i = .opened (headers.extract names).1 := by
  have known : w.relay.createScope.2 < w.relay.createScope.1.scopes.states.length := by
    change w.relay.scopes.states.length < (w.relay.scopes.states ++ [_]).length
    rw [List.length_append]
    exact Nat.lt_succ_self _
  simp only [begin, legal]
  exact ⟨_, _, rfl, Relay.get_begin known names headers⟩

end World

mutual

/-- When a step under way is cut off, the scopes of its requests are empty right after, and the
others are as before. -/
theorem scope_cancel_running (w : World) (r : Running) (i : ScopeId) :
    (r.cancel w).scope i = if i ∈ r.requests then .cleared else w.scope i := by
  cases r with
  | inRequest j body =>
    rw [Running.cancel, World.scope_endRequest, scope_cancel_thread w body i, Running.requests]
    by_cases same : i = j
    · rw [if_pos same, if_pos (List.mem_cons.mpr (.inl same))]
    · simp only [List.mem_cons, same, false_or, if_false]
  | inScope scope body => exact scope_cancel_thread w body i
  | limited deadline body => exact scope_cancel_thread w body i
  | interleaved bodies => exact scope_cancel_all w bodies i
  | _ => exact (if_neg List.not_mem_nil).symm

/-- So it is for a thread. -/
theorem scope_cancel_thread (w : World) (t : Thread) (i : ScopeId) :
    (t.cancel w).scope i = if i ∈ t.requests then .cleared else w.scope i := by
  cases t with
  | idle todo results => exact (if_neg List.not_mem_nil).symm
  | busy todo results began r => exact scope_cancel_running w r i

/-- So it is for several threads. -/
theorem scope_cancel_all (w : World) (ts : List Thread) (i : ScopeId) :
    (cancelAll w ts).scope i = if i ∈ allRequests ts then .cleared else w.scope i := by
  cases ts with
  | nil => exact (if_neg List.not_mem_nil).symm
  | cons t rest =>
    rw [cancelAll, scope_cancel_all _ rest i, scope_cancel_thread w t i, allRequests]
    by_cases later : i ∈ allRequests rest
    · rw [if_pos later, if_pos (List.mem_append_right _ later)]
    · simp only [List.mem_append, later, or_false, if_false]

end

/-- A request that does not wait any more has ended, with a result or by breaking down, and its
scope is empty. -/
theorem play_inRequest (fuel : Nat) (w : World) (place : Place) (i : ScopeId) (body : Thread) :
    (∃ v rest, Running.play fuel w place (.inRequest i body) = (v, .waits (.inRequest i rest))) ∨
      (Running.play fuel w place (.inRequest i body)).1.scope i = .cleared := by
  cases fuel with
  | zero => exact .inl ⟨w, body, rfl⟩
  | succ fuel =>
    simp only [Running.play]
    generalize Thread.play fuel _ _ body = result
    rcases result with ⟨v, rest | rs | rs⟩
    · exact .inl ⟨v, rest, rfl⟩
    · exact .inr ((v.scope_endRequest i i).trans (if_pos rfl))
    · exact .inr ((v.scope_endRequest i i).trans (if_pos rfl))

/-- A request leaves nothing behind. It begins, in any scope, with the correlation of its headers
and with no metrics and no claims. Its scope is empty right after it, whether it comes to a result,
breaks down or is cut off, and in every scenario the requests that have begun are those that have
ended and those that are still open. From its end on, as long as no request begins in the scope and
no correlation is set there, no guard call in it asks the sink for anything, whoever makes it. -/
theorem requests_leave_nothing_behind :
    (∀ {r : Relay} {i : ScopeId}, i < r.scopes.states.length → ∀ (names : HeaderNames)
      (headers : Headers), (r.beginRequest i names headers).scopes.get i =
        { correlation := (headers.extract names).1, metrics := {}, claims := {} }) ∧
    (∀ (w : World) (place : Place) {pairs : List (String × List UInt8)} {headers : Headers},
      Headers.ofList? pairs = some headers → ∀ (names : HeaderNames) (body : List Step),
      ∃ v i, w.begin place (.request pairs names body) =
          (v, .started (.inRequest i (.idle body []))) ∧
        v.scope i = { correlation := (headers.extract names).1, metrics := {}, claims := {} }) ∧
    (∀ (fuel : Nat) (w : World) (place : Place) (i : ScopeId) (body : Thread),
      (∃ v rest, Running.play fuel w place (.inRequest i body) = (v, .waits (.inRequest i rest))) ∨
        (Running.play fuel w place (.inRequest i body)).1.scope i =
          { correlation := {}, metrics := {}, claims := {} }) ∧
    (∀ (w : World) {t : Thread} {i : ScopeId}, i ∈ t.requests →
      (t.cancel w).scope i = { correlation := {}, metrics := {}, claims := {} }) ∧
    (∀ (w : World) (i : ScopeId),
      (w.endRequest i).scope i = { correlation := {}, metrics := {}, claims := {} }) ∧
    (∀ (s : Setup) (fuel turns : Nat),
      let w := (World.initial s).runFor fuel turns
      s.relay.ended + w.relay.begun =
        s.relay.begun + w.relay.ended + w.requests.length + w.openRequests.length) ∧
    (∀ {r t : Relay} {done early between late : List Deed} {d e : Deed} {i : ScopeId}
      {call : Guards.Call}, Trace r done t → done = early ++ d :: between ++ e :: late →
      d.move.action = .finish i → (∀ m ∈ between, m.move.action.informs i = false) →
      e.move.action = .emit (some i) call → e.asked = []) := by
  refine ⟨Relay.get_begin, World.begin_request, play_inRequest, ?_, ?_, Setup.balanced, ?_⟩
  · exact fun w t i under => (scope_cancel_thread w t i).trans (if_pos under)
  · exact fun w i => (w.scope_endRequest i i).trans (if_pos rfl)
  · intro r t done early between late d e i call trace split ends uninformed emits
    have emptied : d.move.action.empties i = true := ends ▸ decide_eq_true rfl
    exact trace.silent split emptied uninformed emits

/-- The headers of a visitor. -/
def visit : List (String × List UInt8) :=
  [("x-trace-id", [116]), ("x-user-id", [117]), ("x-dept-id", [100])]

/-- A request that hangs, with a limit around it. -/
def hanging : Thread :=
  .busy [] [] 0 (.limited 5 (.busy [] [] 0 (.inRequest 0 (.busy [] [] 0 .hanging))))

/-- A relay that records events, with a scope that an earlier visitor has left as it was. -/
def stale : Relay :=
  { Relay.unused with
    target := .recorder 8
    scopes := ⟨[{ correlation := Relay.visitor, claims := { chatTurn := true } }]⟩ }

/-- A visitor's request begins in that scope. -/
def arriving : Move := ⟨some 0, .begin 0 {} ⟨visit⟩⟩

/-- A task that is bound to the scope reports a block. -/
def report : Move := ⟨some 0, .emit (some 0) (.security "pii" "rule")⟩

/-- The request ends. -/
def leaving : Move := ⟨some 0, .finish 0⟩

/-- A visitor's request begins with the visitor's correlation alone, in a scope that was used before
and in one of its own. A request that hangs leaves its scope empty when it is cut off. A task
reports a block while a request runs, and again after its end: only the first report reaches the
sink. -/
theorem late_report_is_not_asked :
    (stale.after [arriving]).scopes.get 0 =
      { correlation := { trace := "t", user := "u", dept := "d" } } ∧
    (∃ v i, World.begin { relay := stale } ⟨0, none, true⟩ (.request visit {} [.hang]) =
        (v, .started (.inRequest i (.idle [.hang] []))) ∧
      v.scope i = { correlation := { trace := "t", user := "u", dept := "d" } }) ∧
    (hanging.cancel { relay := stale }).scope 0 = {} ∧
    (Deed.mk report (stale.after [arriving])).asked.length = 1 ∧
    (Deed.mk report (stale.after [arriving, report, leaving])).asked = [] := by
  obtain ⟨begins, starts, -, cuts, -, -, silent⟩ := requests_leave_nothing_behind
  have legal : Headers.ofList? visit = some ⟨visit⟩ := by decide
  have extracted : (Headers.extract {} ⟨visit⟩).1 = { trace := "t", user := "u", dept := "d" } := by
    decide
  refine ⟨?_, ?_, cuts _ (by decide), by decide, ?_⟩
  · rw [← extracted]
    exact begins (by decide) {} ⟨visit⟩
  · rw [← extracted]
    exact starts _ _ legal {} [.hang]
  · have trace : Trace stale _ _ := Trace.start.moves [arriving, report, leaving, report]
    have split : [] ++ stale.deeds [arriving, report, leaving, report] =
        stale.deeds [arriving, report] ++ ⟨leaving, stale.after [arriving, report]⟩ :: [] ++
          ⟨report, stale.after [arriving, report, leaving]⟩ :: [] := rfl
    exact silent trace split rfl (List.forall_mem_nil _) rfl

end EventRelay.Scenario
