import EventRelay.Proofs.Publisher.Permanence
import EventRelay.Proofs.Publisher.WakeUps

/-!
# The signal of a shutdown

For the signal of a shutdown waits nobody but a loop that is parked, and it waits once. When a
shutdown begins there is at most one loop, so that the signal reaches it: the loop finds it, whether
it had joined the waiters before or is just about to.
-/

namespace EventRelay.Publisher

namespace Signal

variable {g : Signal} {me i : ActivityId}

/-- Whoever leaves a signal that nobody was woken by is not among the waiters any more. -/
theorem Quiet.mem_leave (h : g.Quiet) (nodup : g.waiting.Nodup) (me : ActivityId) :
    (g.leave me).waiting.Nodup ∧ ∀ i ∈ (g.leave me).waiting, i ∈ g.waiting ∧ i ≠ me := by
  have absent : g.called.contains me = false := by
    rw [h.2]
    rfl
  rw [Signal.leave, absent]
  refine ⟨nodup.erase me, fun i hi => ?_⟩
  obtain ⟨other, mem⟩ := nodup.mem_erase_iff.mp hi
  exact ⟨mem, other⟩

/-- Whoever joins is there once, and the others were there before. -/
theorem mem_join (nodup : g.waiting.Nodup) (me : ActivityId) :
    (g.join me).waiting.Nodup ∧ ∀ i ∈ (g.join me).waiting, i ∈ g.waiting ∨ i = me := by
  unfold Signal.join
  split
  · exact ⟨nodup, fun i hi => .inl hi⟩
  · next fresh =>
    simp only [Bool.or_eq_true, List.contains_iff_mem, not_or] at fresh
    constructor
    · refine List.nodup_append.mpr ⟨nodup, List.nodup_singleton me, fun a ha b hb he => ?_⟩
      rw [List.mem_singleton.mp hb] at he
      exact fresh.1 (he ▸ ha)
    · intro i hi
      simpa using hi

/-- If nobody else waits and no notification is under way, an activity is the only one to wait. -/
theorem Quiet.sole (h : g.Quiet) (nodup : g.waiting.Nodup) (only : ∀ i ∈ g.waiting, i = me) :
    g.Sole me := by
  match hw : g.waiting with
  | [] => exact .absent ⟨hw, h.2⟩
  | i :: rest =>
    rw [hw] at nodup only
    have alone : rest = [] := by
      refine List.eq_nil_iff_forall_not_mem.mpr fun j hj => ?_
      have same : i = j :=
        (only i (List.mem_cons_self ..)).trans (only j (List.mem_cons_of_mem i hj)).symm
      exact (List.nodup_cons.mp nodup).1 (same ▸ hj)
    rw [alone, only i (List.mem_cons_self ..)] at hw
    exact .waits hw h.2

end Signal

namespace State

variable {s t u : State} {me i : ActivityId}

/-- Those who wait for the signal of a shutdown are loops that are parked, each of them once. -/
structure Attentive (s : State) : Prop where
  /-- Nobody waits twice. -/
  nodup : s.shutdownSignal.waiting.Nodup
  /-- Whoever waits is a loop that is parked. -/
  parked : ∀ i ∈ s.shutdownSignal.waiting, ∃ tick c,
    s.activity? i = some (.loop (.parked tick) c)

namespace Attentive

/-- What leaves the signal and the activities as they are leaves those who wait for it. -/
theorem same (h : s.Attentive) (signal : t.shutdownSignal = s.shutdownSignal)
    (activities : t.activities = s.activities) : t.Attentive := by
  constructor
  · rw [signal]
    exact h.nodup
  · intro i hi
    rw [activity?, activities]
    exact h.parked i (signal ▸ hi)

/-- An activity begins. -/
theorem add (h : s.Attentive) (a : Activity) : (s.addActivity a).Attentive := by
  refine ⟨h.nodup, fun i hi => ?_⟩
  obtain ⟨tick, c, hp⟩ := h.parked i hi
  exact ⟨tick, c, getElem?_append_of_some hp _⟩

/-- An activity that is not parked goes on. -/
theorem put (h : s.Attentive) {a : Activity} (ha : s.activity? me = some a)
    (other : ∀ tick c, a ≠ .loop (.parked tick) c)
    (signal : u.shutdownSignal = s.shutdownSignal) (activities : u.activities = s.activities)
    (a' : Activity) : (u.setActivity me a').Attentive := by
  have here : u.Attentive := h.same signal activities
  refine ⟨here.nodup, fun i hi => ?_⟩
  obtain ⟨tick, c, hp⟩ := here.parked i hi
  have ne : i ≠ me := by
    rintro rfl
    rw [activity?, activities] at hp
    exact other tick c (Option.some.inj (ha.symm.trans hp))
  exact ⟨tick, c, (List.getElem?_set_ne (Ne.symm ne)).trans hp⟩

/-- A parked loop that is woken by something else leaves the waiters. -/
theorem leave (h : s.Attentive) (quiet : s.shutdownSignal.Quiet)
    (signal : u.shutdownSignal = s.shutdownSignal.leave me)
    (activities : u.activities = s.activities) (a' : Activity) :
    (u.setActivity me a').Attentive := by
  obtain ⟨nodup, others⟩ := quiet.mem_leave h.nodup me
  constructor
  · change u.shutdownSignal.waiting.Nodup
    rw [signal]
    exact nodup
  · intro i hi
    have left : i ∈ (s.shutdownSignal.leave me).waiting := signal ▸ hi
    obtain ⟨waits, ne⟩ := others i left
    obtain ⟨tick, c, hp⟩ := h.parked i waits
    refine ⟨tick, c, (List.getElem?_set_ne (Ne.symm ne)).trans ?_⟩
    rw [activities]
    exact hp

end Attentive

private theorem toss_spares (s : State) :
    s.toss.2.shutdownSignal = s.shutdownSignal ∧ s.toss.2.activities = s.activities := by
  unfold toss
  split <;> exact ⟨rfl, rfl⟩

/-- A step of the loop leaves no other waiters than loops that are parked. -/
private theorem Attentive.loop_step (h : s.Attentive) (quiet : s.shutdownSignal.Quiet) {l : Loop}
    (ha : s.activity? me = some (.loop l false)) (step : l.Steps s me t) : t.Attentive := by
  obtain ⟨signal, activities⟩ := s.toss_spares
  have apart {c : Cycle} {tick : Nat} {u : State} (hl : l = .flushing tick c) (hu : s.Apart u)
      (a' : Activity) : (u.setActivity me a').Attentive := by
    subst hl
    exact h.put ha (fun _ _ he => by cases he) (congrArg Watch.shutdownSignal hu.watch)
      hu.alike.activities a'
  cases step with
  | create => exact h.put ha (fun _ _ he => by cases he) rfl rfl _
  | exit shut =>
    exact h.put (u := s.report .loopExited) ha (fun _ _ he => by cases he) rfl rfl _
  | park up => exact h.put ha (fun _ _ he => by cases he) rfl rfl _
  | @leave tick ready =>
    have told : s.branchReady me tick .shutdown = true := List.find?_some ready
    cases quiet.not_ready.symm.trans told
  | wake ready =>
    exact h.leave (u := s.toss.2.takeBranch me .wake) quiet
      (congrArg (Signal.leave · me) signal) activities _
  | tick ready =>
    exact h.leave (u := s.toss.2.takeBranch me .tick) quiet
      (congrArg (Signal.leave · me) signal) activities _
  | @join tick ready absent =>
    obtain ⟨nodup, known⟩ := Signal.mem_join h.nodup me
    refine ⟨nodup, fun i hi => ?_⟩
    rcases known i hi with waits | rfl
    · exact h.parked i waits
    · exact ⟨tick, false, ha⟩
  | rest shut => exact h.put ha (fun _ _ he => by cases he) rfl rfl _
  | flush up => exact h.put ha (fun _ _ he => by cases he) rfl rfl _
  | goes hc => exact apart rfl (Cycle.apart_of_step hc) _
  | done hc short => exact apart rfl (Cycle.apart_of_step hc) _
  | more hc long => exact apart rfl (Cycle.apart_of_step hc) _
  | breaks hc => exact apart rfl (Cycle.apart_of_step hc) _

/-- A step of a shutdown asks the loop to end, or leaves no other waiters than loops that are
parked. -/
private theorem Attentive.shutdown_step (h : s.Attentive) (vigilant : s.Vigilant)
    (sound : s.lifecycle.Sound) {d : Shutdown} (ha : s.activity? me = some (.shutdown d))
    (step : d.Steps s me t) (up : s.shutdown = false) (still : t.shutdown = false) :
    t.Attentive := by
  -- While nobody is asked to end no shutdown is in progress.
  have fresh : d = .called := by
    by_contra begun
    obtain ⟨awaits, entry⟩ := part_of_begun ha begun
    have closed : s.closed = true := sound.closing (sound.awaited entry).1
    cases (vigilant.shut.symm.trans closed).symm.trans up
  subst fresh
  cases step with
  | again refused =>
    exact h.put (u := s.report _) ha (fun _ _ he => by cases he) rfl rfl _
  | begin moved alone => contradiction
  | await moved worker => contradiction

/-- A step of an activity asks the loop to end, or leaves no other waiters than loops that are
parked. -/
private theorem Attentive.step (h : s.Attentive) (vigilant : s.Vigilant)
    (sound : s.lifecycle.Sound) (hs : s.step? me = some t) (up : s.shutdown = false)
    (still : t.shutdown = false) : t.Attentive := by
  have apart {c : Cycle} (ha : s.activity? me = some (.flush c)) {u : State} (hu : s.Apart u)
      (a' : Activity) : (u.setActivity me a').Attentive :=
    h.put ha (fun _ _ he => by cases he) (congrArg Watch.shutdownSignal hu.watch)
      hu.alike.activities a'
  have step := steps_of_step hs
  cases step with
  | cut ha => cases (vigilant.loop ha up).1
  | loop ha step => exact h.loop_step (vigilant.quiet up) ha step
  | goes ha hc => exact apart ha (Cycle.apart_of_step hc) _
  | ends ha hc => exact apart ha (Cycle.apart_of_step hc) _
  | breaks ha hc => exact apart ha (Cycle.apart_of_step hc) _
  | shutdown ha step => exact h.shutdown_step vigilant sound ha step up still

private theorem Attentive.cancel (h : s.Attentive)
    (other : ∀ l c, s.activity? i ≠ some (.loop l c)) :
    (s.cancel i).Attentive := by
  unfold State.cancel
  split
  · next l c ha => exact absurd ha (other l c)
  · next cycle ha =>
    have apart := cycle.apart_cancel s i
    exact h.put ha (fun _ _ he => by cases he) (congrArg Watch.shutdownSignal apart.watch)
      apart.alike.activities _
  · next d ha =>
    have apart : s.Apart (d.cancel s i) := by
      cases d with
      | flushing cycle sent lost => exact cycle.apart_cancel s i
      | _ => exact .same rfl rfl
    exact h.put ha (fun _ _ he => by cases he) (congrArg Watch.shutdownSignal apart.watch)
      apart.alike.activities _
  · exact h

private theorem Attentive.start (h : s.Attentive) (runtime : Bool) :
    (s.start runtime).1.Attentive := by
  unfold State.start
  split
  · exact h.same rfl rfl
  · split
    · exact h.same rfl rfl
    · split
      · exact h
      · split
        · exact h
        · exact h.same rfl rfl
        · split
          · exact h
          · next moved hm =>
            unfold move? at hm
            obtain ⟨p, _, rfl⟩ := Option.map_eq_some_iff.mp hm
            exact (h.add (.loop .created false)).same rfl rfl

/-- Whatever happens, the loop is asked to end, or nobody waits for the signal but loops that are
parked. -/
private theorem Attentive.acts (h : s.Attentive) (vigilant : s.Vigilant)
    (sound : s.lifecycle.Sound) (act : Acts s t) (up : s.shutdown = false)
    (still : t.shutdown = false) : t.Attentive := by
  cases act with
  | start runtime => exact h.start runtime
  | callFlush => exact h.add _
  | callShutdown => exact h.add _
  | step hs => exact h.step vigilant sound hs up still
  | cancel other => exact h.cancel other
  | elapse millis => exact h.same rfl rfl

private theorem Attentive.offer (h : s.Attentive) (e : Event) : (s.offer e).1.Attentive := by
  unfold State.offer
  split
  · exact h.same rfl rfl
  · split
    · dsimp only
      split <;> exact h.same rfl rfl
    · exact h.same rfl rfl

private theorem shutdown_offer (s : State) (e : Event) : (s.offer e).1.shutdown = s.shutdown := by
  unfold State.offer
  split
  · rfl
  · split
    · dsimp only
      split <;> rfl
    · rfl

end State

/-- In every reachable state in which nobody is asked to end, nobody but a parked loop waits for the
signal of a shutdown. -/
theorem Made.attentive {s : State} (made : Made s) (actions : List Action)
    (up : (s.run actions).shutdown = false) : (s.run actions).Attentive := by
  have start : s.lifecycle.Sound ∧ s.Vigilant ∧ (s.shutdown = false → s.Attentive) := by
    refine ⟨made.sound [], made.vigilant [], fun _ => ?_⟩
    constructor
    · rw [made.untouched.shutdownSignal]
      exact List.nodup_nil
    · intro i hi
      rw [made.untouched.shutdownSignal] at hi
      contradiction
  refine (State.run_keeps
    (P := fun s => s.lifecycle.Sound ∧ s.Vigilant ∧ (s.shutdown = false → s.Attentive))
    (fun {s} e h => ?_) (fun {s t} act h => ?_) start actions).2.2 up
  · refine ⟨(s.lifecycle_offer e).symm ▸ h.1, h.2.1.offer e, fun up => ?_⟩
    rw [State.shutdown_offer] at up
    exact (h.2.2 up).offer e
  · obtain ⟨sound, vigilant, attentive⟩ := h
    have vigilant' := vigilant.acts sound act
    refine ⟨State.sound_of_acts act sound, vigilant', fun still => ?_⟩
    have up : s.shutdown = false := by
      by_contra shut
      have closed : s.closed = true := vigilant.shut.trans (eq_true_of_ne_false shut)
      have after : t.closed = true := by
        rcases (Relation.reflGen_iff _ _ _).mp (State.lifecycle_of_acts act) with same | step
        · exact (congrArg Lifecycle.closed same).trans closed
        · exact step.closed closed
      cases (vigilant'.shut.symm.trans after).symm.trans still
    exact (attentive up).acts vigilant sound act up still

/-- When a shutdown is asked for, the loop finds the signal. -/
theorem Made.summoned {s₀ : State} (made : Made s₀) (actions : List Action) {me : ActivityId}
    {l : Loop} {cancelled : Bool}
    (lives : (s₀.run actions).activity? me = some (.loop l cancelled))
    (up : (s₀.run actions).shutdown = false) :
    (s₀.run actions).shutdownSignal.notify.readyFor me = true := by
  have vigilant := made.vigilant actions
  have attentive := made.attentive actions up
  have only : ∀ i ∈ (s₀.run actions).shutdownSignal.waiting, i = me := by
    intro i hi
    obtain ⟨tick, c, parked⟩ := attentive.parked i hi
    exact State.loop_unique (made.sound actions) (vigilant.shut.trans up) parked lives
  exact ((vigilant.quiet up).sole attentive.nodup only).notify.2

end EventRelay.Publisher
