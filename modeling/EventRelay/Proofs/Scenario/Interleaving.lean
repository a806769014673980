import Mathlib.Algebra.BigOperators.Group.List.Basic
import Mathlib.Algebra.Order.Group.Multiset
import EventRelay.Proofs.Relay.Isolation
import EventRelay.Scenario.Run

/-!
# Steps of tasks in any order

What is still to be played are strands: lists of steps, each bound to a scope or to none. A request,
a named scope, steps that were kept for later and a new task bring strands with scopes of their own;
the steps after them stay bound as they were. A course takes the next step of any strand at any
time. What its steps do with scopes are moves on the relay, each by a task that works with the scope
it is bound to.
-/

namespace EventRelay

open Request (ScopeId)

/-- What a task that is bound to a scope, or to none, can do: it works with that scope alone, it
makes scopes, and it clears scopes that it holds. -/
inductive Relay.Move.Own (scope : Option ScopeId) : Relay.Action → Prop
  /-- It makes a scope. -/
  | create : Own scope .create
  /-- It works with its scope. -/
  | perform (op : Request.Operation) : Own scope (.perform scope op)
  /-- It calls a guard in its scope. -/
  | emit (call : Guards.Call) : Own scope (.emit scope call)
  /-- It begins a request in its scope. -/
  | begin {i : ScopeId} (bound : scope = some i) (names : Request.HeaderNames)
    (headers : Request.Headers) : Own scope (.begin i names headers)
  /-- It ends a request. -/
  | finish (i : ScopeId) : Own scope (.finish i)
  /-- It clears a scope. -/
  | clear (i : ScopeId) : Own scope (.clear i)

namespace Scenario

open Relay (Deed Move Trace)

/-- Steps that are taken one after the other. -/
structure Strand where
  /-- The scope that the steps are bound to. -/
  scope : Option ScopeId
  /-- The steps. -/
  todo : List Step

mutual

/-- The strands of a step under way; `ambient` is the scope around it. -/
def Running.strands (ambient : Option ScopeId) : Running → Multiset Strand
  | .inRequest i body => body.strands (some i)
  | .inScope scope body => body.strands scope
  | .limited _ body => body.strands ambient
  | .interleaved bodies => allStrands ambient bodies
  | _ => 0

/-- The strands of a thread. -/
def Thread.strands (ambient : Option ScopeId) : Thread → Multiset Strand
  | .idle todo _ => {⟨ambient, todo⟩}
  | .busy todo _ _ r => ⟨ambient, todo⟩ ::ₘ r.strands ambient

/-- The strands of several threads. -/
def allStrands (ambient : Option ScopeId) : List Thread → Multiset Strand
  | [] => 0
  | t :: rest => t.strands ambient + allStrands ambient rest

end

/-- The strands of a task. -/
def Task.strands (task : Task) : Multiset Strand :=
  match task.body with
  | .thread t => t.strands task.scope
  | _ => 0

/-- The strands of a step that has begun. -/
def Beginning.strands (ambient : Option ScopeId) : Beginning → Multiset Strand
  | .started r => r.strands ambient
  | _ => 0

/-- The strand of the task that a step starts. -/
def Step.spawned (ambient : Option ScopeId) : Step → Multiset Strand
  | .spawn _ bare body => {⟨if bare then none else ambient, body⟩}
  | _ => 0

namespace World

/-- A step is taken: the world after it, and the strands that its task gets. -/
def take (w : World) (place : Place) : Step → World × Multiset Strand
  | .scopeSync name body => ((w.scopeNamed name).1, {⟨some (w.scopeNamed name).2, body⟩})
  | s => ((w.begin place s).1, (w.begin place s).2.strands place.scope)

/-- Naming a scope makes it if there is none of that name. -/
def naming (w : World) (scope : Option ScopeId) (name : String) : List Move :=
  if (w.named.lookup name).isNone then [⟨scope, .create⟩] else []

/-- What a step does with scopes, taken by a task that is bound to the given one. -/
def moves (w : World) (scope : Option ScopeId) : Step → List Move
  | .request headers names _ =>
    match Request.Headers.ofList? headers with
    | none => []
    | some headers =>
      let i := w.relay.createScope.2
      [⟨scope, .create⟩, ⟨some i, .begin i names headers⟩]
  | .scope name _ | .scopeSync name _ | .scopeCorrelation name | .scopeDebug name =>
    w.naming scope name
  | .scopeReset name => w.naming scope name ++ [⟨scope, .clear (w.scopeNamed name).2⟩]
  | .openRequest name headers names =>
    match Request.Headers.ofList? headers, scope with
    | some headers, some i =>
      ⟨scope, .begin i names headers⟩ ::
        (w.openRequests.lookup name).toList.map fun j => ⟨scope, .finish j⟩
    | _, _ => []
  | .closeRequest name => (w.openRequests.lookup name).toList.map fun i => ⟨scope, .finish i⟩
  | .scoped op => [⟨scope, .perform scope op⟩]
  | .emit call => [⟨scope, .emit scope call⟩]
  | _ => []

/-- Two worlds with the same scopes, and the same things kept about them. -/
structure Keeps (w v : World) : Prop where
  scopes : v.relay.scopes = w.relay.scopes
  named : v.named = w.named
  openRequests : v.openRequests = w.openRequests
  bound : v.bound = w.bound

/-- Two worlds that have the same tasks, too. -/
structure Quiet (w v : World) : Prop extends Keeps w v where
  tasks : v.tasks = w.tasks

end World

/-- From a world and the strands of any number of tasks, steps are taken in any order. -/
inductive Course (start : World) (tasks : Multiset Strand) :
    List Deed → World → Multiset Strand → Prop
  /-- Nothing has happened. -/
  | start : Course start tasks [] start tasks
  /-- Some strand goes on: a task takes its next step. -/
  | step {done : List Deed} {w : World} {left rest : Multiset Strand} {s : Step}
    {todo : List Step} (place : Place) (next : left = ⟨place.scope, s :: todo⟩ ::ₘ rest)
    (course : Course start tasks done w left) :
    Course start tasks (done ++ w.relay.deeds (w.moves place.scope s)) (w.take place s).1
      (⟨place.scope, todo⟩ ::ₘ ((w.take place s).2 + (s.spawned place.scope + rest)))
  /-- A request comes to its end, or is cut off. -/
  | close {done : List Deed} {w : World} {left : Multiset Strand} (i : ScopeId)
    (course : Course start tasks done w left) :
    Course start tasks (done ++ [⟨⟨some i, .finish i⟩, w.relay⟩]) (w.endRequest i) left
  /-- A strand is at its end, or is cut off. -/
  | leave {done : List Deed} {w : World} {rest : Multiset Strand} (strand : Strand)
    (course : Course start tasks done w (strand ::ₘ rest)) : Course start tasks done w rest
  /-- Something happens that has nothing to do with scopes. -/
  | aside {done : List Deed} {w v : World} {left : Multiset Strand} (keeps : w.Keeps v)
    (course : Course start tasks done w left) : Course start tasks done v left

namespace World

namespace Quiet

variable {u v w : World}

theorem refl (w : World) : w.Quiet w := ⟨⟨rfl, rfl, rfl, rfl⟩, rfl⟩

theorem trans (first : u.Quiet v) (next : v.Quiet w) : u.Quiet w where
  scopes := next.scopes.trans first.scopes
  named := next.named.trans first.named
  openRequests := next.openRequests.trans first.openRequests
  bound := next.bound.trans first.bound
  tasks := next.tasks.trans first.tasks

end Quiet

theorem quiet_setPublisher (w : World) (p : Publisher.State) : w.Quiet (w.setPublisher p) :=
  ⟨⟨rfl, rfl, rfl, rfl⟩, rfl⟩

theorem quiet_schedule (w : World) (t : TaskId) : w.Quiet (w.schedule t) := by
  unfold schedule
  split
  · exact ⟨⟨rfl, rfl, rfl, rfl⟩, rfl⟩
  · split
    · exact .refl w
    · exact ⟨⟨rfl, rfl, rfl, rfl⟩, rfl⟩

theorem quiet_wake (w : World) (running : Option TaskId) : w.Quiet (w.wake running) := by
  refine List.foldlRecOn _ _ (Quiet.refl w) fun v quiet t _ => ?_
  split
  · exact quiet.trans (v.quiet_schedule t)
  · exact quiet

theorem quiet_enqueue (w : World) (running : TaskId) (count : Nat) :
    w.Quiet (w.enqueue running count).1 := by
  induction count generalizing w with
  | zero => exact .refl w
  | succ count ih =>
    simp only [enqueue]
    refine .trans (.trans ?_ (quiet_wake _ _)) (ih _)
    exact ⟨⟨rfl, rfl, rfl, rfl⟩, rfl⟩

/-- A new task has nothing to do with scopes. -/
theorem keeps_addTask (w : World) (task : Task) : w.Keeps (w.addTask task).1 :=
  have kept := quiet_schedule { w with tasks := w.tasks ++ [task] } w.tasks.length
  ⟨kept.scopes, kept.named, kept.openRequests, kept.bound⟩

theorem tasks_addTask (w : World) (task : Task) : (w.addTask task).1.tasks = w.tasks ++ [task] :=
  (quiet_schedule { w with tasks := w.tasks ++ [task] } _).tasks

theorem relay_scopeNamed (w : World) (scope : Option ScopeId) (name : String) :
    (w.scopeNamed name).1.relay = w.relay.after (w.naming scope name) := by
  unfold scopeNamed naming
  cases w.named.lookup name <;> rfl

theorem tasks_scopeNamed (w : World) (name : String) : (w.scopeNamed name).1.tasks = w.tasks := by
  unfold scopeNamed
  cases w.named.lookup name <;> rfl

/-- What a step does to the scopes and the tasks of a world. -/
structure Takes (w : World) (place : Place) (s : Step) (v : World) : Prop where
  /-- The scopes are those after the moves of the step. -/
  scopes : v.relay.scopes = (w.relay.after (w.moves place.scope s)).scopes
  /-- The strands of new tasks are those that the step gives away. -/
  tasks : ∃ new, v.tasks = w.tasks ++ new ∧ (new.map Task.strands).sum = s.spawned place.scope

/-- Starting the publisher brings at most a task without strands. -/
private theorem takes_start (w : World) (place : Place) (runtime : Bool) :
    w.Takes place (.start runtime) (w.start runtime).1 := by
  have added (p : Prop) [Decidable p] (q : Publisher.State) (i : Publisher.ActivityId) :
      w.Takes place (.start runtime)
        (if p then ((w.setPublisher q).addTask ⟨none, .loop i⟩).1 else w.setPublisher q) := by
    split
    · exact ⟨(keeps_addTask ..).scopes, _, tasks_addTask .., rfl⟩
    · exact ⟨rfl, [], (List.append_nil _).symm, rfl⟩
  simp only [start]
  split
  · exact added ..
  · exact added ..

/-- A step does its moves, and gives no more away than the steps of a new task. -/
theorem takes (w : World) (place : Place) (s : Step) : w.Takes place s (w.take place s).1 := by
  have alone {s : Step} {v : World} (spawns : 0 = s.spawned place.scope)
      (scopes : v.relay.scopes = (w.relay.after (w.moves place.scope s)).scopes)
      (tasks : v.tasks = w.tasks) : w.Takes place s v :=
    ⟨scopes, [], tasks.trans (List.append_nil _).symm, spawns⟩
  have scopes (name : String) : (w.scopeNamed name).1.relay.scopes =
      (w.relay.after (w.naming place.scope name)).scopes :=
    congrArg Relay.scopes (w.relay_scopeNamed place.scope name)
  have tasks (name : String) : (w.scopeNamed name).1.tasks = w.tasks := w.tasks_scopeNamed name
  cases s with
  | request headers names body =>
    apply alone rfl
    all_goals
      simp only [take, begin, moves]
      cases Request.Headers.ofList? headers <;> rfl
  | scope name body => exact alone rfl (scopes name) (tasks name)
  | scopeSync name body => exact alone rfl (scopes name) (tasks name)
  | scopeCorrelation name => exact alone rfl (scopes name) (tasks name)
  | scopeDebug name => exact alone rfl (scopes name) (tasks name)
  | scopeReset name =>
    refine alone rfl ?_ (tasks name)
    simp only [take, begin, moves]
    rw [Relay.after_concat, ← relay_scopeNamed]
    rfl
  | openRequest name headers names =>
    apply alone rfl
    all_goals
      simp only [take, begin, moves]
      cases Request.Headers.ofList? headers with
      | none => rfl
      | some headers =>
        cases place.scope with
        | none => rfl
        | some i => cases w.openRequests.lookup name <;> rfl
  | closeRequest name =>
    apply alone rfl
    all_goals
      simp only [take, begin, moves]
      cases w.openRequests.lookup name <;> rfl
  | capture name =>
    apply alone rfl
    all_goals
      simp only [take, begin]
      cases place.scope <;> rfl
  | spawn name bare body =>
    simp only [take, begin]
    cases name <;> exact ⟨(keeps_addTask ..).scopes, _, tasks_addTask .., add_zero _⟩
  | join name =>
    apply alone rfl
    all_goals
      simp only [take, begin, takeHandle]
      cases w.handles.lookup name <;> rfl
  | await name =>
    apply alone rfl
    all_goals
      simp only [take, begin, takeBound]
      cases w.bound.lookup name <;> rfl
  | emit call => exact alone rfl (quiet_wake ..).scopes (quiet_wake ..).tasks
  | enqueue count => exact alone rfl (quiet_enqueue ..).scopes (quiet_enqueue ..).tasks
  | start runtime => exact w.takes_start place runtime
  | _ => exact alone rfl rfl rfl

end World

/-- A task works with no scope but its own. -/
theorem own_of_moves (w : World) (scope : Option ScopeId) (s : Step) :
    ∀ m ∈ w.moves scope s, Move.Own m.scope m.action := by
  have naming (name : String) : ∀ m ∈ w.naming scope name, Move.Own m.scope m.action := by
    unfold World.naming
    split
    · exact List.forall_mem_singleton.mpr .create
    · exact List.forall_mem_nil _
  have finish (found : Option ScopeId) :
      ∀ m ∈ found.toList.map fun i => (⟨scope, .finish i⟩ : Move), Move.Own m.scope m.action :=
    List.forall_mem_map.mpr fun i _ => .finish i
  cases s with
  | request headers names body =>
    simp only [World.moves]
    split
    · exact List.forall_mem_nil _
    · exact List.forall_mem_cons.mpr ⟨.create, List.forall_mem_singleton.mpr (.begin rfl ..)⟩
  | scope name body => exact naming name
  | scopeSync name body => exact naming name
  | scopeCorrelation name => exact naming name
  | scopeDebug name => exact naming name
  | scopeReset name =>
    exact List.forall_mem_append.mpr ⟨naming name, List.forall_mem_singleton.mpr (.clear _)⟩
  | openRequest name headers names =>
    simp only [World.moves]
    split
    · exact List.forall_mem_cons.mpr ⟨.begin rfl .., finish _⟩
    · exact List.forall_mem_nil _
  | closeRequest name => exact finish _
  | «scoped» op => exact List.forall_mem_singleton.mpr (.perform op)
  | emit call => exact List.forall_mem_singleton.mpr (.emit call)
  | _ => exact List.forall_mem_nil _

end Scenario

end EventRelay
