import EventRelay.Proofs.Publisher.Run
import EventRelay.Proofs.Relay.Receipts
import EventRelay.Proofs.Scenario.Accounts

/-!
# The publisher of a scenario

Whatever the tasks of a scenario do, and however they are cut off, nothing happens to the publisher
but its own actions: events are offered, calls begin, activities run or are cut off, and time
passes. So the publisher of a scenario is at all times where one of its runs leads, and everything
that holds after every run of a publisher holds of it.
-/

namespace EventRelay

open Publisher (Action State)

namespace Relay

/-- Only a relay whose guards send to the publisher offers it the event. -/
theorem publisher_offer (r : Relay) (e : Event) :
    (r.offer e).1.publisher = r.publisher ∨
      (r.offer e).1.publisher = (r.publisher.offer e).1 := by
  unfold offer
  cases r.target with
  | none => exact .inl rfl
  | publisher => exact .inr rfl
  | recorder accepts => exact .inl rfl

/-- A guard call leaves the publisher as it is or offers it an event. -/
theorem publisher_emit (r : Relay) (scope : Option Request.ScopeId) (call : Guards.Call) :
    (r.emit scope call).1.publisher = r.publisher ∨
      ∃ e, (r.emit scope call).1.publisher = (r.publisher.offer e).1 := by
  cases h : (r.ruling scope call).decision with
  | «over» outcome => exact .inl (emit_of_over h).1
  | offer e =>
    obtain ⟨t, accepted, offered, emitted⟩ := r.emit_offer h
    have sent := publisher_offer
      { r.decided scope call with serial := (r.decided scope call).serial + 1 } e
    rw [offered] at sent
    rw [emitted, ← r.decided_publisher scope call]
    exact sent.imp_right fun sent => ⟨e, sent⟩

end Relay

namespace Scenario

variable {u v w : World}

/-- What happens to the publisher from one world to another are actions of its own. -/
def Leads (w v : World) : Prop := ∃ actions, w.publisher.run actions = v.publisher

namespace Leads

theorem same (h : v.publisher = w.publisher) : Leads w v := ⟨[], h.symm⟩

theorem refl (w : World) : Leads w w := .same rfl

theorem trans (first : Leads w v) (next : Leads v u) : Leads w u := by
  obtain ⟨earlier, he⟩ := first
  obtain ⟨later, hl⟩ := next
  exact ⟨earlier ++ later, by rw [State.run_append, he, hl]⟩

/-- The publisher makes one action. -/
theorem act (w : World) (a : Action) : Leads w (w.setPublisher (w.publisher.apply a)) := ⟨[a], rfl⟩

/-- Waking tasks does nothing to the publisher. -/
theorem wake (h : Leads w v) {running : Option TaskId} : Leads w (v.wake running) :=
  h.trans (.same (congrArg Relay.publisher (v.relay_wake running)))

/-- Events are offered by hand. -/
theorem enqueue (w : World) (running : TaskId) (count : Nat) :
    Leads w (w.enqueue running count).1 := by
  induction count generalizing w with
  | zero => exact .refl w
  | succ count ih =>
    simp only [World.enqueue]
    refine .trans (.wake ?_) (ih _)
    exact ⟨[.offer (World.sampleEvent w.relay.serial w.now)], rfl⟩

/-- The publisher is started. -/
theorem start (w : World) (runtime : Bool) : Leads w (w.start runtime).1 := by
  have added (p : Prop) [Decidable p] (q : State) (i : Publisher.ActivityId) :
      (if p then ((w.setPublisher q).addTask ⟨none, .loop i⟩).1 else
        w.setPublisher q).publisher = q := by
    split
    · exact congrArg Relay.publisher (World.relay_schedule ..)
    · rfl
  refine ⟨[.start runtime], ?_⟩
  simp only [World.start]
  split <;> exact (added ..).symm

/-- A named scope is looked up or made. -/
theorem scopeNamed (w : World) (name : String) : Leads w (w.scopeNamed name).1 := by
  unfold World.scopeNamed
  split <;> exact .refl w

/-- A request begins. -/
theorem beginRequest (w : World) (i : Request.ScopeId) (names : Request.HeaderNames)
    (headers : Request.Headers) : Leads w (w.beginRequest i names headers) :=
  .same (Relay.publisher_observeAll _ _)

/-- A request ends. -/
theorem endRequest (w : World) (i : Request.ScopeId) : Leads w (w.endRequest i) := .same rfl

/-- A step begins. -/
theorem begin (w : World) (place : Place) (s : Step) : Leads w (w.begin place s).1 := by
  cases s with
  | request headers names body =>
    simp only [World.begin]
    cases Request.Headers.ofList? headers with
    | none => exact .refl w
    | some headers => exact .same (Relay.publisher_observeAll _ _)
  | openRequest name headers names =>
    simp only [World.begin]
    cases Request.Headers.ofList? headers with
    | none => exact .refl w
    | some headers =>
      cases place.scope with
      | none => exact .refl w
      | some i =>
        have begun := Leads.beginRequest w i names headers
        cases w.openRequests.lookup name with
        | none => exact begun.trans (.same rfl)
        | some j => exact begun.trans (.trans (.same rfl) (.endRequest _ j))
  | closeRequest name =>
    simp only [World.begin]
    cases w.openRequests.lookup name <;> exact .refl w
  | scope name body => exact .scopeNamed w name
  | scopeCorrelation name => exact .scopeNamed w name
  | scopeDebug name => exact .scopeNamed w name
  | scopeReset name => exact (Leads.scopeNamed w name).trans (.same rfl)
  | capture name =>
    simp only [World.begin]
    cases place.scope <;> exact .refl w
  | spawn name bare body =>
    have added := congrArg Relay.publisher (World.relay_schedule
      { w with tasks := w.tasks ++ [⟨if bare then none else place.scope, .thread (.idle body [])⟩] }
        w.tasks.length)
    simp only [World.begin]
    cases name <;> exact .same added
  | join name =>
    simp only [World.begin, World.takeHandle]
    cases w.handles.lookup name <;> exact .refl w
  | await name =>
    simp only [World.begin, World.takeBound]
    cases w.bound.lookup name <;> exact .refl w
  | «scoped» op => exact .same (Relay.publisher_observeAll _ _)
  | emit call =>
    refine .wake ?_
    rcases w.relay.publisher_emit place.scope call with same | ⟨e, offered⟩
    · exact .same same
    · exact ⟨[.offer e], offered.symm⟩
  | enqueue count => exact .enqueue w place.task count
  | start runtime => exact .start w runtime
  | flush => exact .act w .flush
  | stop => exact .act w .shutdown
  | _ => exact .refl w

mutual

/-- A step under way is cut off: so are the calls that it waits for. -/
theorem cancel_running (w : World) (r : Running) : Leads w (r.cancel w) := by
  cases r with
  | flushing i => exact .act w (.cancel i)
  | stopping i => exact .act w (.cancel i)
  | inRequest scope body => exact (cancel_thread w body).trans (.same rfl)
  | inScope scope body => exact cancel_thread w body
  | limited deadline body => exact cancel_thread w body
  | interleaved bodies => exact cancel_all w bodies
  | _ => exact .refl w

/-- A thread is cut off. -/
theorem cancel_thread (w : World) (t : Thread) : Leads w (t.cancel w) := by
  cases t with
  | idle todo results => exact .refl w
  | busy todo results began r => exact cancel_running w r

/-- Several threads are cut off. -/
theorem cancel_all (w : World) (ts : List Thread) : Leads w (cancelAll w ts) := by
  cases ts with
  | nil => exact .refl w
  | cons t rest => exact (cancel_thread w t).trans (cancel_all _ rest)

end

end Leads

/-- With a fuel the player does nothing to the publisher but actions of its own. -/
structure LeadsWith (fuel : Nat) : Prop where
  /-- So it is for threads. -/
  thread (w : World) (place : Place) (t : Thread) : Leads w (t.play fuel w place).1
  /-- So it is for steps under way. -/
  running (w : World) (place : Place) (r : Running) : Leads w (r.play fuel w place).1
  /-- So it is for several threads. -/
  all (w : World) (place : Place) (ts : List Thread) : Leads w (playAll fuel w place ts).1

namespace LeadsWith

variable {fuel : Nat} {place : Place}

/-- A step has its answer, and the thread goes on. -/
private theorem answered (leads : LeadsWith fuel) (todo : List Step) (results : List Result)
    (a : Answer) (h : Leads w v) :
    Leads w (Thread.play fuel (v.look a).1 place (.idle todo ((v.look a).2 :: results))).1 :=
  have looked : Leads w (v.look a).1 := h.trans (.same rfl)
  looked.trans (leads.thread _ place (.idle todo _))

/-- A step that may wait begins. -/
private theorem begins (leads : LeadsWith fuel) (w : World) {s : Step} (todo : List Step)
    (results : List Result) (waits : ∀ name body, s ≠ .scopeSync name body) :
    Leads w (Thread.play (fuel + 1) w place (.idle (s :: todo) results)).1 := by
  have begun := Leads.begin w place s
  rw [Thread.play]
  · generalize w.begin place s = result at begun ⊢
    rcases result with ⟨v, a | r | _⟩
    · exact leads.answered todo results a begun
    · -- Only a step that lets others run is not played on at once.
      cases r with
      | yielded => exact begun.trans (.same (congrArg Relay.publisher (v.relay_defer place)))
      | _ => exact begun.trans (leads.thread v place _)
    · exact begun
  · exact waits

/-- Steps are taken in a scope without waiting; what they would have to wait for is cut off. -/
private theorem synchronous (leads : LeadsWith fuel) (w : World) (name : String)
    (body todo : List Step) (results : List Result) :
    Leads w
      (Thread.play (fuel + 1) w place (.idle (.scopeSync name body :: todo) results)).1 := by
  simp only [Thread.play]
  have inside := (Leads.scopeNamed w name).trans (leads.thread (w.scopeNamed name).1
    { place with scope := some (w.scopeNamed name).2, mayWait := false } (.idle body []))
  generalize Thread.play fuel _ _ _ = result at inside ⊢
  rcases result with ⟨v, body | rs | rs⟩
  · exact leads.answered todo results _ (inside.trans (.cancel_thread v body)).wake
  · exact leads.answered todo results _ inside.wake
  · exact inside.wake

/-- A thread goes on with the step that it is in. -/
private theorem continues (leads : LeadsWith fuel) (w : World) (todo : List Step)
    (results : List Result) (began : Nat) (r : Running) :
    Leads w (Thread.play (fuel + 1) w place (.busy todo results began r)).1 := by
  simp only [Thread.play]
  have came := leads.running w place r
  generalize Running.play fuel w place r = result at came ⊢
  rcases result with ⟨v, next | a | a | _⟩
  · exact came
  · dsimp only
    split
    · exact came.trans (.same (congrArg Relay.publisher (v.relay_awaitCalm place)))
    · exact leads.answered todo results a came
  · exact leads.answered todo results a came
  · exact came

/-- A step under way is played. -/
private theorem proceeds (leads : LeadsWith fuel) (w : World) (r : Running) :
    Leads w (Running.play (fuel + 1) w place r).1 := by
  cases r with
  | advancing time =>
    simp only [Running.play]
    split
    · exact .same (congrArg Relay.publisher (w.relay_awaitCalm place))
    · exact .refl w
  | calming =>
    simp only [Running.play]
    split <;> exact .refl w
  | settling a =>
    simp only [Running.play]
    split <;> exact .refl w
  | flushing i => exact (Leads.act w (.poll i)).wake
  | stopping i => exact (Leads.act w (.poll i)).wake
  | inRequest i body =>
    simp only [Running.play]
    have came := leads.thread w { place with scope := some i } body
    generalize Thread.play fuel _ _ _ = result at came ⊢
    rcases result with ⟨v, body | rs | rs⟩ <;> exact came.trans (.same rfl)
  | inScope scope body =>
    simp only [Running.play]
    have came := leads.thread w { place with scope } body
    generalize Thread.play fuel _ _ _ = result at came ⊢
    rcases result with ⟨v, body | rs | rs⟩ <;> exact came
  | limited deadline body =>
    simp only [Running.play]
    have came := leads.thread w place body
    generalize Thread.play fuel _ _ _ = result at came ⊢
    rcases result with ⟨v, body | rs | rs⟩
    · dsimp only
      split
      · exact (came.trans (.cancel_thread v body)).wake
      · exact came
    · exact came
    · exact came
  | interleaved bodies =>
    simp only [Running.play]
    have came := leads.all w place bodies
    generalize playAll fuel w place bodies = result at came ⊢
    rcases result with ⟨v, _ | bodies⟩
    · exact came
    · dsimp only
      split <;> exact came
  | _ => exact .refl w

/-- Several threads are played. -/
private theorem proceed (leads : LeadsWith fuel) (w : World) (ts : List Thread) :
    Leads w (playAll (fuel + 1) w place ts).1 := by
  cases ts with
  | nil => exact .refl w
  | cons t rest =>
    simp only [playAll]
    have came := leads.thread w place t
    generalize Thread.play fuel w place t = result at came ⊢
    rcases result with ⟨v, t | rs | rs⟩
    · have others := came.trans (leads.all v place rest)
      dsimp only
      generalize playAll fuel v place rest = result at others ⊢
      rcases result with ⟨u, _ | rest⟩
      · exact others.trans (.cancel_thread u t)
      · exact others
    · have others := came.trans (leads.all v place rest)
      dsimp only
      generalize playAll fuel v place rest = result at others ⊢
      rcases result with ⟨u, _ | rest⟩ <;> exact others
    · exact came.trans (.cancel_all v rest)

/-- So it is with any fuel. The functions of the player call each other with one less. -/
theorem all_fuel (fuel : Nat) : LeadsWith fuel := by
  induction fuel with
  | zero => exact ⟨fun w _ _ => .refl w, fun w _ _ => .refl w, fun w _ _ => .refl w⟩
  | succ fuel leads =>
    refine ⟨fun w place t => ?_, fun w place r => leads.proceeds w r,
      fun w place ts => leads.proceed w ts⟩
    cases t with
    | busy todo results began r => exact leads.continues w todo results began r
    | idle todo results =>
      cases todo with
      | nil => exact .refl w
      | cons s todo =>
        cases s with
        | scopeSync name body => exact leads.synchronous w name body todo results
        | _ => exact leads.begins w todo results fun _ _ => Step.noConfusion

end LeadsWith

/-- A task has its turn. -/
theorem Leads.runTask (w : World) (fuel : Nat) (t : TaskId) : Leads w (w.runTask fuel t) := by
  have set {v : World} (h : Leads w v) (body : TaskBody) : Leads w (v.setTask t body) :=
    h.trans (.same rfl)
  unfold World.runTask
  split
  · next scope i known =>
    have polled := Leads.act w (.poll i)
    refine .wake ?_
    split
    · exact set polled _
    · exact polled
  · next scope body known =>
    have came := (LeadsWith.all_fuel fuel).thread w { task := t, scope } body
    generalize Thread.play fuel w _ body = result at came ⊢
    rcases result with ⟨v, body | rs | rs⟩ <;> exact (set came _).wake
  · exact .refl w

/-- However long a scenario is played, its publisher is where a run of it leads. -/
theorem Setup.publisher_runs (s : Setup) (fuel turns : Nat) :
    ∃ actions, ((World.initial s).runFor fuel turns).publisher =
      s.relay.publisher.run actions := by
  have leads : Leads (.initial s) ((World.initial s).runFor fuel turns) := by
    refine World.runFor_keeps (P := Leads (.initial s)) ?_ ?_ ?_ (.refl _) turns
    · exact fun h _ same => h.trans (.same (congrArg Relay.publisher same))
    · exact fun w time h => h.trans (.wake (.act w (.elapse (time - w.now))))
    · exact fun w t h => h.trans (.runTask w fuel t)
  obtain ⟨actions, run⟩ := leads
  exact ⟨actions, run.symm⟩

end Scenario

end EventRelay
