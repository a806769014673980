import EventRelay.Proofs.Relay.Boundary
import EventRelay.Proofs.Scenario.Playing

/-!
# Accounts of requests

A request that has begun is under way in a step, or it is kept open under a name, until it ends.
However a thread comes to wait, to its end or to break down, and wherever it is cut off, the account
balances: the requests that were open and those that are reported to begin are as many as those that
are reported to end and those that are open then. So no request is lost on the way.
-/

namespace EventRelay

open Request (ScopeId)

namespace Scenario

mutual

/-- The scopes of the requests under way in a step. -/
def Running.requests : Running → List ScopeId
  | .inRequest i body => i :: body.requests
  | .inScope _ body => body.requests
  | .limited _ body => body.requests
  | .interleaved bodies => allRequests bodies
  | _ => []

/-- The scopes of the requests under way in a thread. -/
def Thread.requests : Thread → List ScopeId
  | .idle _ _ => []
  | .busy _ _ _ r => r.requests

/-- The scopes of the requests under way in several threads. -/
def allRequests : List Thread → List ScopeId
  | [] => []
  | t :: rest => t.requests ++ allRequests rest

end

/-- There are no requests under way in several threads if there are none in any of them. -/
theorem allRequests_eq_nil {ts : List Thread} (h : ∀ t ∈ ts, t.requests = []) :
    allRequests ts = [] := by
  induction ts with
  | nil => rfl
  | cons t rest ih =>
    obtain ⟨first, others⟩ := List.forall_mem_cons.mp h
    rw [allRequests, first, ih others]
    rfl

/-- The scopes of the requests under way in a task. -/
def Task.requests (task : Task) : List ScopeId :=
  match task.body with
  | .thread t => t.requests
  | _ => []

/-- The scopes of the requests under way in a step that has begun. -/
def Beginning.requests : Beginning → List ScopeId
  | .started r => r.requests
  | _ => []

/-- The scopes of the requests that a thread has still under way. -/
def Progress.requests : Progress → List ScopeId
  | .waits t => t.requests
  | _ => []

/-- The scopes of the requests that a step has still under way. -/
def StepProgress.requests : StepProgress → List ScopeId
  | .waits r => r.requests
  | _ => []

namespace World

/-- The scopes of the requests under way in all tasks. -/
def requests (w : World) : List ScopeId := w.tasks.flatMap Task.requests

/-- Under each name one request is kept open at most. -/
def Distinct (w : World) : Prop := (w.openRequests.map Prod.fst).Nodup

end World

/-- From one world to another the account balances; `before` and `after` are the requests that are
under way besides those that are kept open. -/
def Balanced (w : World) (before : List ScopeId) (v : World) (after : List ScopeId) : Prop :=
  w.Distinct → v.Distinct ∧
    before.length + w.openRequests.length + w.relay.ended + v.relay.begun =
      after.length + v.openRequests.length + v.relay.ended + w.relay.begun

/-- What a player makes of requests under way: the account balances, and tasks that it starts have
not begun any request yet. -/
structure Accounts (w : World) (before : List ScopeId) (v : World) (after : List ScopeId) :
    Prop where
  balanced : Balanced w before v after
  tasks : ∃ new, v.tasks = w.tasks ++ new ∧ ∀ task ∈ new, task.requests = []

variable {u v w : World} {before after more : List ScopeId}

namespace World

theorem relay_wake (w : World) (running : Option TaskId) : (w.wake running).relay = w.relay := by
  refine List.foldlRecOn (motive := fun v : World => v.relay = w.relay) _ _ rfl ?_
  intro v same t _
  split
  · exact (v.relay_schedule t).trans same
  · exact same

theorem relay_defer (w : World) (place : Place) : (w.defer place).relay = w.relay := by
  unfold defer
  split <;> rfl

theorem relay_awaitCalm (w : World) (place : Place) : (w.awaitCalm place).relay = w.relay := by
  unfold awaitCalm
  split <;> rfl

/-- A poll of the publisher reports nothing about requests, and neither does what it wakes. -/
theorem still_poll (w : World) (p : Publisher.State) (running : Option TaskId) :
    w.relay.Still ((w.setPublisher p).wake running).relay :=
  (relay_wake (w.setPublisher p) running).symm ▸ .setPublisher w.relay p

/-- Offering events by hand reports nothing about requests. -/
theorem still_enqueue (w : World) (running : TaskId) (count : Nat) :
    w.relay.Still (w.enqueue running count).1.relay := by
  induction count generalizing w with
  | zero => exact .refl w.relay
  | succ count ih =>
    simp only [enqueue]
    refine .trans ?_ (ih _)
    rw [relay_wake]
    exact .trans (t := { w.relay with serial := w.relay.serial + 1 }) (.of_history rfl)
      (.setPublisher _ _)

end World

namespace Balanced

/-- The account balances if nothing is reported and as many requests are open as before. -/
theorem of_still (still : w.relay.Still v.relay) (kept : v.openRequests = w.openRequests)
    (rs : List ScopeId) : Balanced w rs v rs := by
  intro distinct
  rw [World.Distinct, kept, still.begun, still.ended]
  exact ⟨distinct, rfl⟩

theorem trans (first : Balanced w before v more) (next : Balanced v more u after) :
    Balanced w before u after := by
  intro distinct
  obtain ⟨distinct, books⟩ := first distinct
  obtain ⟨distinct, books'⟩ := next distinct
  refine ⟨distinct, ?_⟩
  omega

/-- What is under way beside does not matter. -/
theorem beside (h : Balanced w before v after) (first last : List ScopeId) :
    Balanced w (first ++ before ++ last) v (first ++ after ++ last) := by
  intro distinct
  obtain ⟨distinct, books⟩ := h distinct
  refine ⟨distinct, ?_⟩
  simp only [List.length_append]
  omega

end Balanced

namespace Accounts

theorem quiet (quiet : w.Quiet v) (still : w.relay.Still v.relay) (rs : List ScopeId) :
    Accounts w rs v rs :=
  ⟨.of_still still quiet.openRequests rs, [], quiet.tasks.trans (List.append_nil _).symm,
    List.forall_mem_nil _⟩

/-- What leaves the relay as it is does not matter, if it has nothing to do with tasks. -/
theorem mark (quiet : w.Quiet v) (same : v.relay = w.relay) (rs : List ScopeId) :
    Accounts w rs v rs := .quiet quiet (same ▸ .refl w.relay) rs

theorem refl (w : World) (rs : List ScopeId) : Accounts w rs w rs := mark (.refl w) rfl rs

theorem trans (first : Accounts w before v more) (next : Accounts v more u after) :
    Accounts w before u after := by
  obtain ⟨new, added, idle⟩ := first.tasks
  obtain ⟨new', added', idle'⟩ := next.tasks
  refine ⟨first.balanced.trans next.balanced, new ++ new', ?_, ?_⟩
  · rw [added', added, List.append_assoc]
  · exact List.forall_mem_append.mpr ⟨idle, idle'⟩

/-- Waking tasks does not matter. -/
theorem wake (h : Accounts w before v after) {running : Option TaskId} :
    Accounts w before (v.wake running) after :=
  h.trans (mark (v.quiet_wake running) (v.relay_wake running) after)

/-- Requests that are under way before it in the list do not matter. -/
theorem left (h : Accounts w before v after) (first : List ScopeId) :
    Accounts w (first ++ before) v (first ++ after) := by
  refine ⟨?_, h.tasks⟩
  have beside := h.balanced.beside first []
  rwa [List.append_nil, List.append_nil] at beside

/-- Requests that are under way after it in the list do not matter. -/
theorem right (h : Accounts w before v after) (last : List ScopeId) :
    Accounts w (before ++ last) v (after ++ last) := ⟨h.balanced.beside [] last, h.tasks⟩

/-- A request ends. -/
theorem close (w : World) (i : ScopeId) : Accounts w [i] (w.endRequest i) [] := by
  obtain ⟨begun, ended⟩ := w.relay.reports_end i
  refine ⟨fun distinct => ⟨distinct, ?_⟩, [], (List.append_nil _).symm, List.forall_mem_nil _⟩
  change [i].length + w.openRequests.length + _ + (w.relay.endRequest i).begun =
    0 + w.openRequests.length + (w.relay.endRequest i).ended + _
  rw [begun, ended, List.length_singleton]
  omega

mutual

/-- A step under way is cut off: its requests end. -/
theorem cancel_running (w : World) (r : Running) : Accounts w r.requests (r.cancel w) [] := by
  cases r with
  | flushing i => exact quiet (w.quiet_setPublisher _) (.setPublisher ..) []
  | stopping i => exact quiet (w.quiet_setPublisher _) (.setPublisher ..) []
  | inRequest i body => exact ((cancel_thread w body).left [i]).trans (close _ i)
  | inScope scope body => exact cancel_thread w body
  | limited deadline body => exact cancel_thread w body
  | interleaved bodies => exact cancel_all w bodies
  | _ => exact refl w []

/-- A thread is cut off: its requests end. -/
theorem cancel_thread (w : World) (t : Thread) : Accounts w t.requests (t.cancel w) [] := by
  cases t with
  | idle todo results => exact refl w []
  | busy todo results began r => exact cancel_running w r

/-- Several threads are cut off: their requests end. -/
theorem cancel_all (w : World) (ts : List Thread) :
    Accounts w (allRequests ts) (cancelAll w ts) [] := by
  cases ts with
  | nil => exact refl w []
  | cons t rest => exact ((cancel_thread w t).right (allRequests rest)).trans (cancel_all _ rest)

end

end Accounts

namespace World

variable {entries : List (String × ScopeId)}

theorem distinct_unassign (distinct : (entries.map Prod.fst).Nodup) (name : String) :
    ((unassign name entries).map Prod.fst).Nodup :=
  distinct.sublist (List.filter_sublist.map _)

theorem distinct_assign (distinct : (entries.map Prod.fst).Nodup) (name : String) (i : ScopeId) :
    ((assign name i entries).map Prod.fst).Nodup := by
  refine List.nodup_cons.mpr ⟨fun h => ?_, distinct_unassign distinct name⟩
  obtain ⟨entry, kept, same⟩ := List.mem_map.mp h
  exact of_decide_eq_true (List.mem_filter.mp kept).2 same

/-- Without a name exactly that is gone which had the name. -/
theorem length_unassign (distinct : (entries.map Prod.fst).Nodup) (name : String) :
    entries.length = (entries.lookup name).toList.length + (unassign name entries).length := by
  induction entries with
  | nil => rfl
  | cons entry rest ih =>
    obtain ⟨other, j⟩ := entry
    obtain ⟨absent, distinct⟩ := List.nodup_cons.mp distinct
    by_cases same : other = name
    · subst same
      have others : unassign other rest = rest := List.filter_eq_self.mpr fun entry kept =>
        decide_eq_true fun h => absent (List.mem_map.mpr ⟨entry, kept, h⟩)
      have gone : unassign other ((other, j) :: rest) = rest := by
        rw [unassign, List.filter_cons_of_neg (by simp), ← unassign, others]
      rw [gone, List.lookup_cons_self, List.length_cons, Nat.add_comm]
      rfl
    · have found : ((other, j) :: rest).lookup name = rest.lookup name := by
        rw [List.lookup_cons, beq_false_of_ne (Ne.symm same)]
      have stays : unassign name ((other, j) :: rest) = (other, j) :: unassign name rest :=
        List.filter_cons_of_pos (decide_eq_true same)
      rw [found, stays, List.length_cons, List.length_cons, ih distinct, Nat.add_assoc]

private theorem still_scopeNamed (w : World) (name : String) :
    w.relay.Still (w.scopeNamed name).1.relay := by
  unfold scopeNamed
  split <;> exact .of_history rfl

private theorem openRequests_scopeNamed (w : World) (name : String) :
    (w.scopeNamed name).1.openRequests = w.openRequests := by
  unfold scopeNamed
  split <;> rfl

/-- Starting the publisher has nothing to do with requests. -/
private theorem start_idle (w : World) (runtime : Bool) :
    w.relay.Still (w.start runtime).1.relay ∧
      (w.start runtime).1.openRequests = w.openRequests := by
  have added (p : Prop) [Decidable p] (q : Publisher.State) (i : Publisher.ActivityId) :
      w.relay.Still (if p then ((w.setPublisher q).addTask ⟨none, .loop i⟩).1 else
        w.setPublisher q).relay ∧
      (if p then ((w.setPublisher q).addTask ⟨none, .loop i⟩).1 else
        w.setPublisher q).openRequests = w.openRequests := by
    split
    · refine ⟨?_, (keeps_addTask ..).openRequests⟩
      exact (relay_schedule ..).symm ▸ .setPublisher w.relay q
    · exact ⟨.setPublisher w.relay q, rfl⟩
  simp only [start]
  split <;> exact added ..

/-- The account balances when a request begins with a scope of its own. -/
private theorem balanced_request (w : World) (place : Place) (pairs : List (String × List UInt8))
    (names : Request.HeaderNames) (body : List Step) :
    Balanced w [] (w.take place (.request pairs names body)).1
      (w.begin place (.request pairs names body)).2.requests := by
  simp only [take, begin]
  cases Request.Headers.ofList? pairs with
  | none => exact .of_still (.refl w.relay) rfl []
  | some headers =>
    obtain ⟨begun, ended⟩ := Relay.reports_begin w.relay.createScope.1 w.relay.createScope.2 names
      headers
    refine fun distinct => ⟨distinct, ?_⟩
    dsimp only [World.beginRequest, Beginning.requests, Running.requests, Thread.requests]
    rw [begun, ended]
    change 0 + _ + w.relay.createScope.1.ended + _ = 1 + _ + _ + w.relay.createScope.1.begun
    omega

/-- The account balances when a request begins in the current scope; one that had the name before
ends. -/
private theorem balanced_openRequest (w : World) (place : Place) (name : String)
    (pairs : List (String × List UInt8)) (names : Request.HeaderNames) :
    Balanced w [] (w.take place (.openRequest name pairs names)).1
      (w.begin place (.openRequest name pairs names)).2.requests := by
  simp only [take, begin]
  cases Request.Headers.ofList? pairs with
  | none => exact .of_still (.refl w.relay) rfl []
  | some headers =>
    cases place.scope with
    | none => exact .of_still (.refl w.relay) rfl []
    | some i =>
      intro distinct
      obtain ⟨begun, ended⟩ := Relay.reports_begin w.relay i names headers
      have before := length_unassign distinct name
      cases found : w.openRequests.lookup name with
      | none =>
        refine ⟨distinct_assign distinct name i, ?_⟩
        rw [found] at before
        dsimp only [World.beginRequest, Beginning.requests, assign]
        rw [begun, ended, List.length_cons, before, unassign]
        change 0 + (0 + _) + _ + _ = 0 + _ + _ + _
        omega
      | some j =>
        refine ⟨distinct_assign distinct name i, ?_⟩
        rw [found] at before
        obtain ⟨begun', ended'⟩ := Relay.reports_end (w.relay.beginRequest i names headers) j
        dsimp only [World.beginRequest, World.endRequest, Beginning.requests, assign]
        rw [begun', ended', begun, ended, List.length_cons, before, unassign]
        change 0 + (1 + _) + _ + _ = 0 + _ + _ + _
        omega

/-- The account balances when a request that was kept open ends. -/
private theorem balanced_closeRequest (w : World) (place : Place) (name : String) :
    Balanced w [] (w.take place (.closeRequest name)).1
      (w.begin place (.closeRequest name)).2.requests := by
  simp only [take, begin]
  cases found : w.openRequests.lookup name with
  | none => exact .of_still (.refl w.relay) rfl []
  | some j =>
    intro distinct
    have before := length_unassign distinct name
    rw [found] at before
    refine ⟨distinct_unassign distinct name, ?_⟩
    obtain ⟨begun, ended⟩ := Relay.reports_end w.relay j
    dsimp only [World.endRequest, Beginning.requests]
    rw [begun, ended, before]
    change 0 + (1 + _) + _ + _ = 0 + _ + _ + _
    omega

/-- The account balances over a step that is taken. -/
theorem balanced_take (w : World) (place : Place) (s : Step) :
    Balanced w [] (w.take place s).1 (w.begin place s).2.requests := by
  have plain {s : Step} (still : w.relay.Still (w.take place s).1.relay)
      (kept : (w.take place s).1.openRequests = w.openRequests)
      (begun : (w.begin place s).2.requests = []) :
      Balanced w [] (w.take place s).1 (w.begin place s).2.requests :=
    begun ▸ .of_still still kept []
  have still : w.relay.Still w.relay := .refl w.relay
  have scope (name : String) := w.still_scopeNamed name
  have kept (name : String) := w.openRequests_scopeNamed name
  cases s with
  | request pairs names body => exact w.balanced_request place pairs names body
  | openRequest name pairs names => exact w.balanced_openRequest place name pairs names
  | closeRequest name => exact w.balanced_closeRequest place name
  | scope name body => exact plain (scope name) (kept name) rfl
  | scopeSync name body => exact plain (scope name) (kept name) rfl
  | scopeCorrelation name => exact plain (scope name) (kept name) rfl
  | scopeDebug name => exact plain (scope name) (kept name) rfl
  | scopeReset name => exact plain ((scope name).trans (.of_history rfl)) (kept name) rfl
  | capture name =>
    simp only [take, begin]
    cases place.scope <;> exact .of_still still rfl []
  | spawn name bare body =>
    have added := (keeps_addTask w ⟨if bare then none else place.scope, .thread (.idle body [])⟩)
    simp only [take, begin]
    cases name with
    | none => exact .of_still ((relay_schedule ..).symm ▸ still) added.openRequests []
    | some name => exact .of_still ((relay_schedule ..).symm ▸ still) added.openRequests []
  | join name =>
    simp only [take, begin, takeHandle]
    cases w.handles.lookup name <;> exact .of_still still rfl []
  | await name =>
    simp only [take, begin, takeBound]
    cases w.bound.lookup name <;> exact .of_still still rfl []
  | interleave bodies =>
    exact plain still rfl (allRequests_eq_nil (List.forall_mem_map.mpr fun body _ => rfl))
  | «scoped» op => exact plain (.perform w.relay place.scope op) rfl rfl
  | emit call =>
    refine plain ?_ (quiet_wake ..).openRequests rfl
    exact (relay_wake ..).symm ▸ .emit w.relay place.scope call
  | enqueue count => exact plain (w.still_enqueue ..) (quiet_enqueue ..).openRequests rfl
  | start runtime => exact plain (w.start_idle runtime).1 (w.start_idle runtime).2 rfl
  | flush => exact plain (.setPublisher ..) rfl rfl
  | stop => exact plain (.setPublisher ..) rfl rfl
  | _ => exact plain still rfl rfl

/-- Starting the publisher brings at most a task that plays no steps. -/
private theorem tasks_start (w : World) (runtime : Bool) :
    ∃ new, (w.start runtime).1.tasks = w.tasks ++ new ∧ ∀ task ∈ new, task.requests = [] := by
  have added (p : Prop) [Decidable p] (q : Publisher.State) (i : Publisher.ActivityId) :
      ∃ new, (if p then ((w.setPublisher q).addTask ⟨none, .loop i⟩).1 else
        w.setPublisher q).tasks = w.tasks ++ new ∧ ∀ task ∈ new, task.requests = [] := by
    split
    · exact ⟨_, tasks_addTask .., List.forall_mem_singleton.mpr rfl⟩
    · exact ⟨[], (List.append_nil _).symm, List.forall_mem_nil _⟩
  simp only [start]
  split <;> exact added ..

/-- The tasks that a step starts have not begun any request yet. -/
theorem tasks_take (w : World) (place : Place) (s : Step) :
    ∃ new, (w.take place s).1.tasks = w.tasks ++ new ∧ ∀ task ∈ new, task.requests = [] := by
  have alone {s : Step} (same : (w.take place s).1.tasks = w.tasks) :
      ∃ new, (w.take place s).1.tasks = w.tasks ++ new ∧ ∀ task ∈ new, task.requests = [] :=
    ⟨[], same.trans (List.append_nil _).symm, List.forall_mem_nil _⟩
  cases s with
  | spawn name bare body =>
    simp only [take, begin]
    cases name <;> exact ⟨_, tasks_addTask .., List.forall_mem_singleton.mpr rfl⟩
  | start runtime => exact w.tasks_start runtime
  | scope name body => exact alone (w.tasks_scopeNamed name)
  | scopeSync name body => exact alone (w.tasks_scopeNamed name)
  | scopeCorrelation name => exact alone (w.tasks_scopeNamed name)
  | scopeDebug name => exact alone (w.tasks_scopeNamed name)
  | scopeReset name => exact alone (w.tasks_scopeNamed name)
  | emit call => exact alone (quiet_wake ..).tasks
  | enqueue count => exact alone (quiet_enqueue ..).tasks
  | request pairs names body =>
    apply alone
    simp only [take, begin]
    split <;> rfl
  | openRequest name pairs names =>
    apply alone
    simp only [take, begin]
    cases Request.Headers.ofList? pairs with
    | none => rfl
    | some headers =>
      cases place.scope with
      | none => rfl
      | some i => cases w.openRequests.lookup name <;> rfl
  | closeRequest name =>
    apply alone
    simp only [take, begin]
    split <;> rfl
  | capture name =>
    apply alone
    simp only [take, begin]
    split <;> rfl
  | join name =>
    apply alone
    simp only [take, begin, takeHandle]
    cases w.handles.lookup name <;> rfl
  | await name =>
    apply alone
    simp only [take, begin, takeBound]
    cases w.bound.lookup name <;> rfl
  | _ => exact alone rfl

end World

namespace Accounts

/-- A step is taken. -/
theorem take (w : World) (place : Place) (s : Step) :
    Accounts w [] (w.take place s).1 (w.begin place s).2.requests :=
  ⟨w.balanced_take place s, w.tasks_take place s⟩

end Accounts

/-- With a fuel the player keeps account of requests. -/
structure Accounted (fuel : Nat) : Prop where
  /-- So it does for threads. -/
  thread (w : World) (place : Place) (t : Thread) :
    Accounts w t.requests (t.play fuel w place).1 (t.play fuel w place).2.requests
  /-- So it does for steps under way. -/
  running (w : World) (place : Place) (r : Running) :
    Accounts w r.requests (r.play fuel w place).1 (r.play fuel w place).2.requests
  /-- So it does for several threads. -/
  all (w : World) (place : Place) (ts : List Thread) :
    Accounts w (allRequests ts) (playAll fuel w place ts).1
      ((playAll fuel w place ts).2.elim [] allRequests)

namespace Accounted

variable {fuel : Nat} {place : Place}

/-- Without fuel nothing is played. -/
theorem zero : Accounted 0 where
  thread w _ t := .refl w t.requests
  running w _ r := .refl w r.requests
  all w _ ts := .refl w (allRequests ts)

/-- A step has its answer, and the thread goes on. -/
private theorem answered (accounted : Accounted fuel) (todo : List Step) (results : List Result)
    (a : Answer) (h : Accounts w before v []) :
    Accounts w before (Thread.play fuel (v.look a).1 place (.idle todo ((v.look a).2 :: results))).1
      (Thread.play fuel (v.look a).1 place
        (.idle todo ((v.look a).2 :: results))).2.requests :=
  (h.trans (.mark (v.quiet_look a) rfl [])).trans (accounted.thread _ place (.idle todo _))

/-- A step that may wait begins. -/
private theorem begins (accounted : Accounted fuel) (w : World) {s : Step} (todo : List Step)
    (results : List Result) (waits : ∀ name body, s ≠ .scopeSync name body) :
    Accounts w [] (Thread.play (fuel + 1) w place (.idle (s :: todo) results)).1
      (Thread.play (fuel + 1) w place (.idle (s :: todo) results)).2.requests := by
  have taken := Accounts.take w place s
  have begun : (w.take place s).1 = (w.begin place s).1 := by
    cases s with
    | scopeSync name body => exact absurd rfl (waits name body)
    | _ => rfl
  rw [begun] at taken
  rw [Thread.play]
  · generalize w.begin place s = result at taken ⊢
    rcases result with ⟨v, a | r | _⟩
    · exact accounted.answered todo results a taken
    · -- Only a step that lets others run is not played on at once.
      cases r with
      | yielded => exact taken.trans (.mark (v.quiet_defer place) (v.relay_defer place) [])
      | _ => exact taken.trans (accounted.thread v place (.busy todo results v.now _))
    · exact taken
  · exact waits

/-- Steps are taken in a scope without waiting; what they would have to wait for is cut off. -/
private theorem synchronous (accounted : Accounted fuel) (w : World) (name : String)
    (body todo : List Step) (results : List Result) :
    Accounts w [] (Thread.play (fuel + 1) w place (.idle (.scopeSync name body :: todo) results)).1
      (Thread.play (fuel + 1) w place
        (.idle (.scopeSync name body :: todo) results)).2.requests := by
  simp only [Thread.play]
  have inside := (Accounts.take w place (.scopeSync name body)).trans
    (accounted.thread (w.scopeNamed name).1
      { place with scope := some (w.scopeNamed name).2, mayWait := false } (.idle body []))
  generalize Thread.play fuel _ _ _ = result at inside ⊢
  rcases result with ⟨v, body | rs | rs⟩
  · exact accounted.answered todo results _
      (inside.trans (.cancel_thread v body)).wake
  · exact accounted.answered todo results _ inside.wake
  · exact inside.wake

/-- A thread goes on with the step that it is in. -/
private theorem continues (accounted : Accounted fuel) (w : World) (todo : List Step)
    (results : List Result) (began : Nat) (r : Running) :
    Accounts w r.requests (Thread.play (fuel + 1) w place (.busy todo results began r)).1
      (Thread.play (fuel + 1) w place (.busy todo results began r)).2.requests := by
  simp only [Thread.play]
  have came := accounted.running w place r
  generalize Running.play fuel w place r = result at came ⊢
  rcases result with ⟨v, next | a | a | _⟩
  · exact came
  · dsimp only
    split
    · exact came.trans (.mark (v.quiet_awaitCalm place) (v.relay_awaitCalm place) [])
    · exact accounted.answered todo results a came
  · exact accounted.answered todo results a came
  · exact came

/-- A step under way is played. -/
private theorem proceeds (accounted : Accounted fuel) (w : World) (r : Running) :
    Accounts w r.requests (Running.play (fuel + 1) w place r).1
      (Running.play (fuel + 1) w place r).2.requests := by
  cases r with
  | sleeping time =>
    simp only [Running.play]
    split <;> exact .refl w []
  | yielded => exact .refl w []
  | hanging => exact .refl w []
  | advancing time =>
    simp only [Running.play]
    split
    · exact .mark (w.quiet_awaitCalm place) (w.relay_awaitCalm place) []
    · exact .refl w []
  | calming =>
    simp only [Running.play]
    split
    · exact .mark (w.quiet_calm false) rfl []
    · exact .refl w []
  | settling a =>
    simp only [Running.play]
    split
    · exact .mark (w.quiet_calm false) rfl []
    · exact .refl w []
  | flushing i =>
    have polled := (w.quiet_setPublisher (w.publisher.poll i)).trans
      (World.quiet_wake _ (some place.task))
    simp only [Running.play, World.afterFlush]
    split <;> exact .quiet polled (w.still_poll ..) []
  | stopping i =>
    have polled := (w.quiet_setPublisher (w.publisher.poll i)).trans
      (World.quiet_wake _ (some place.task))
    simp only [Running.play, World.afterStop]
    split <;> exact .quiet polled (w.still_poll ..) []
  | joining t named =>
    simp only [Running.play, World.afterJoin]
    split <;> exact .refl w []
  | inRequest i body =>
    simp only [Running.play]
    have came := (accounted.thread w { place with scope := some i } body).left [i]
    generalize Thread.play fuel _ _ _ = result at came ⊢
    -- However the steps of the request end, the request ends with them.
    rcases result with ⟨v, body | rs | rs⟩
    · exact came
    · exact came.trans (.close v i)
    · exact came.trans (.close v i)
  | inScope scope body =>
    simp only [Running.play]
    have came := accounted.thread w { place with scope } body
    generalize Thread.play fuel _ _ _ = result at came ⊢
    rcases result with ⟨v, body | rs | rs⟩ <;> exact came
  | limited deadline body =>
    simp only [Running.play]
    have came := accounted.thread w place body
    generalize Thread.play fuel _ _ _ = result at came ⊢
    rcases result with ⟨v, body | rs | rs⟩
    · dsimp only
      split
      · exact (came.trans (.cancel_thread v body)).wake
      · exact came
    · exact came
    · exact came
  | interleaved bodies =>
    simp only [Running.play]
    have came := accounted.all w place bodies
    generalize playAll fuel w place bodies = result at came ⊢
    rcases result with ⟨v, _ | bodies⟩
    · exact came
    · dsimp only
      split
      · next atEnd =>
        have none : allRequests bodies = [] := allRequests_eq_nil fun t ht => by
          have ended := List.all_eq_true.mp atEnd t ht
          cases t with
          | idle todo results => rfl
          | busy todo results began r => contradiction
        rw [Option.elim_some, none] at came
        exact came
      · exact came

/-- Several threads are played. -/
private theorem proceed (accounted : Accounted fuel) (w : World) (ts : List Thread) :
    Accounts w (allRequests ts) (playAll (fuel + 1) w place ts).1
      ((playAll (fuel + 1) w place ts).2.elim [] allRequests) := by
  cases ts with
  | nil => exact .refl w []
  | cons t rest =>
    simp only [playAll]
    have came := (accounted.thread w place t).right (allRequests rest)
    generalize Thread.play fuel w place t = result at came ⊢
    rcases result with ⟨v, t | rs | rs⟩
    · have others := came.trans ((accounted.all v place rest).left t.requests)
      dsimp only
      generalize playAll fuel v place rest = result at others ⊢
      rcases result with ⟨u, _ | rest⟩
      · have cut : Accounts u (t.requests ++ []) (t.cancel u) [] := by
          rw [List.append_nil]
          exact .cancel_thread u t
        exact others.trans cut
      · exact others
    · have others := came.trans (accounted.all v place rest)
      dsimp only
      generalize playAll fuel v place rest = result at others ⊢
      rcases result with ⟨u, _ | rest⟩ <;> exact others
    · exact came.trans (.cancel_all v rest)

/-- With any fuel the player keeps account of requests. Its functions call each other with one
less. -/
theorem all_fuel (fuel : Nat) : Accounted fuel := by
  induction fuel with
  | zero => exact .zero
  | succ fuel accounted =>
    refine ⟨fun w place t => ?_, fun w place r => accounted.proceeds w r,
      fun w place ts => accounted.proceed w ts⟩
    cases t with
    | busy todo results began r => exact accounted.continues w todo results began r
    | idle todo results =>
      cases todo with
      | nil => exact .refl w []
      | cons s todo =>
        cases s with
        | scopeSync name body => exact accounted.synchronous w name body todo results
        | _ => exact accounted.begins w todo results fun _ _ => Step.noConfusion

end Accounted

namespace World

/-- The requests under way in all tasks are those of one task and those of the others. -/
theorem perm_requests {t : TaskId} {task : Task} (known : w.tasks[t]? = some task) :
    w.requests.Perm (task.requests ++ (w.tasks.eraseIdx t).flatMap Task.requests) := by
  obtain ⟨bound, rfl⟩ := List.getElem?_eq_some_iff.mp known
  exact ((List.getElem_cons_eraseIdx_perm bound).flatMap_right Task.requests).symm

end World

namespace Balanced

/-- The order of the requests under way does not matter. -/
theorem perm (h : Balanced w before v after) {before' after' : List ScopeId}
    (first : before'.Perm before) (last : after'.Perm after) : Balanced w before' v after' := by
  intro distinct
  rw [first.length_eq, last.length_eq]
  exact h distinct

/-- What reports nothing and has nothing to do with tasks does not matter. -/
theorem quiet (h : Balanced u before w w.requests) (quiet : w.Quiet v)
    (still : w.relay.Still v.relay) : Balanced u before v v.requests := by
  rw [World.requests, quiet.tasks]
  exact h.trans (.of_still still quiet.openRequests _)

/-- A task has been played: its requests are accounted for, and the other tasks have theirs. -/
private theorem of_accounts {t : TaskId} {task : Task} (known : w.tasks[t]? = some task)
    (h : Accounts w task.requests v after) {body : TaskBody}
    (left : after = Task.requests ⟨task.scope, body⟩) :
    Balanced w w.requests (v.setTask t body) (v.setTask t body).requests := by
  obtain ⟨new, added, idle⟩ := h.tasks
  obtain ⟨bound, -⟩ := List.getElem?_eq_some_iff.mp known
  have played : (v.setTask t body).tasks[t]? = some ⟨task.scope, body⟩ := by
    rw [World.setTask, List.getElem?_modify_eq, added, List.getElem?_append_left bound, known]
    rfl
  have others : ((v.setTask t body).tasks.eraseIdx t).flatMap Task.requests =
      (w.tasks.eraseIdx t).flatMap Task.requests := by
    rw [World.setTask, List.eraseIdx_modify_of_eq, added, List.eraseIdx_append_of_lt_length bound,
      List.flatMap_append, List.flatMap_eq_nil_iff.mpr idle, List.append_nil]
  have set : Balanced v after (v.setTask t body) after := .of_still (.refl v.relay) rfl after
  refine ((h.balanced.trans set).beside [] _).perm (World.perm_requests known) ?_
  have parts := World.perm_requests played
  rwa [others, ← left] at parts

/-- A task has its turn. -/
theorem runTask (w : World) (fuel : Nat) (t : TaskId) :
    Balanced w w.requests (w.runTask fuel t) (w.runTask fuel t).requests := by
  have woken {v : World} (h : Balanced w w.requests v v.requests) :
      Balanced w w.requests (v.wake none) (v.wake none).requests :=
    h.quiet (v.quiet_wake none) ((v.relay_wake none).symm ▸ .refl v.relay)
  unfold World.runTask
  split
  · next scope i known =>
    have polled := Accounts.quiet (w.quiet_setPublisher (w.publisher.poll i))
      (.setPublisher w.relay (w.publisher.poll i))
    refine woken ?_
    split
    · exact of_accounts known (polled []) rfl
    · exact (polled w.requests).balanced
  · next scope body known =>
    have came := (Accounted.all_fuel fuel).thread w { task := t, scope } body
    generalize Thread.play fuel w _ body = result at came ⊢
    rcases result with ⟨v, body | rs | rs⟩ <;> exact woken (of_accounts known came rfl)
  · exact .of_still (.refl w.relay) rfl w.requests

end Balanced

/-- However long a scenario is played, the requests that are reported to begin are those that are
reported to end and those that are still open: under way in a task, or kept open under a name. -/
theorem Setup.balanced (s : Setup) (fuel turns : Nat) :
    let w := (World.initial s).runFor fuel turns
    s.relay.ended + w.relay.begun =
      s.relay.begun + w.relay.ended + w.requests.length + w.openRequests.length := by
  intro w
  have balanced : Balanced (.initial s) [] w w.requests := by
    refine World.runFor_keeps (P := fun w => Balanced (.initial s) [] w w.requests)
      ?_ ?_ ?_ ?_ turns
    · exact fun h marks same => h.quiet marks (same ▸ .refl _)
    · exact fun w time h => h.quiet (w.quiet_jump time) (w.still_poll _ none)
    · exact fun w t h => h.trans (.runTask w fuel t)
    · exact .of_still (.refl s.relay) rfl []
  obtain ⟨-, books⟩ := balanced List.nodup_nil
  change 0 + 0 + s.relay.ended + _ = _ + _ + _ + s.relay.begun at books
  omega

end Scenario

end EventRelay
