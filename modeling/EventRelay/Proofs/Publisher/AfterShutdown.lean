import EventRelay.Proofs.Publisher.Finality

/-!
# After a completed shutdown

When everything is over, a flush that returns has had nothing to do. And it does return: whoever
has the turn gives it up as soon as it runs, so that the line moves up until it is empty. Together
with the finality of the state this is all that a caller can observe after a completed shutdown.
-/

namespace EventRelay.Publisher

open Relation

namespace State

variable {s t : State} {me i : ActivityId}

/-- Only a flush returns an outcome. -/
theorem flush_of_part {a : Activity} (h : a.part = .flush) : ∃ c, a = .flush c := by
  cases a with
  | loop => contradiction
  | flush c => exact ⟨c, rfl⟩
  | shutdown d => cases d <;> contradiction
  | ended => contradiction

/-- What has just ended with the outcome of a flush was a flush. -/
private theorem flush_of_move {l l' : Lifecycle} {o : Outcome} (move : Lifecycle.Move i l l')
    (after : l'.parts[i]? = some (.ended (.flushed o))) : l.parts[i]? = some .flush := by
  cases move with
  | @leave p c entry ends =>
    rcases getElem?_of_set after with ⟨_, hc⟩ | ⟨hne, _⟩
    · cases hc
      cases p with
      | flush => exact entry
      | _ => contradiction
    · exact absurd rfl hne
  | stop entry =>
    rcases getElem?_of_set after with ⟨_, hc⟩ | ⟨hne, _⟩
    · contradiction
    · exact absurd rfl hne
  | joined entry =>
    rcases getElem?_of_set after with ⟨_, hc⟩ | ⟨hne, _⟩
    · contradiction
    · exact absurd rfl hne
  | finish entry =>
    rcases getElem?_of_set after with ⟨_, hc⟩ | ⟨hne, _⟩
    · cases hc
    · exact absurd rfl hne

/-- An outcome that is new is that of a flush cycle which has just ended. -/
theorem flush_of_step {o : Outcome} (hs : s.step? i = some t)
    (h : t.activity? i = some (.ended (.flushed o))) :
    ∃ c u, s.activity? i = some (.flush c) ∧ c.step s i s.settings.retryOnce = .ends u o := by
  have after := part_of_activity h
  have flushing : s.lifecycle.parts[i]? = some .flush := by
    rcases (reflGen_iff _ _ _).mp (move_of_step hs) with he | move
    · rw [he] at after
      rw [step?, ended_of_part after] at hs
      contradiction
    · exact flush_of_move move after
  rw [getElem?_parts] at flushing
  obtain ⟨a, ha, hp⟩ := Option.map_eq_some_iff.mp flushing
  obtain ⟨c, rfl⟩ := flush_of_part hp
  have entry {u : State} (hu : u.lifecycle = s.lifecycle) (a' : Activity) :
      (u.setActivity i a').lifecycle.parts[i]? = some a'.part := part_setActivity hu ha a'
  have step := steps_of_step hs
  cases step with
  | cut other => cases ha.symm.trans other
  | loop other => cases ha.symm.trans other
  | @goes _ c' u _ hc => cases (entry (Cycle.lifecycle_of_step hc) (.flush c')).symm.trans after
  | @ends _ o' u other hc =>
    cases (entry (Cycle.lifecycle_of_step hc) (.ended (.flushed o'))).symm.trans after
    cases ha.symm.trans other
    exact ⟨c, u, ha, hc⟩
  | @breaks _ u _ hc => cases (entry (Cycle.lifecycle_of_step hc) (.ended .broken)).symm.trans after
  | shutdown other => cases ha.symm.trans other

/-- In a final state no flush cycle has a batch. -/
theorem Final.without_batch (h : s.Final) {a : Activity} {c : Cycle}
    (ha : s.activity? i = some a) (hc : a.cycle? = some c) : c.batch? = none := by
  cases hb : c.batch? with
  | none => rfl
  | some batch =>
    have hp : cycleAt s.books.posts i = some c := by
      rw [cycleAt_posts, ha, Option.bind_some, hc]
    obtain ⟨sh, hn, _⟩ := h.idle.known hp hb
    contradiction

private theorem activity_of_ended (act : Acts s t) {c : Closing}
    (h : t.activity? i = some (.ended c)) : ∃ a, s.activity? i = some a := by
  have after := part_of_activity h
  have before : ∃ p, s.lifecycle.parts[i]? = some p := by
    rcases (reflGen_iff _ _ _).mp (lifecycle_of_acts act) with he | step
    · rw [he] at after
      exact ⟨_, after⟩
    · generalize s.lifecycle = l, t.lifecycle = l' at step after
      cases step with
      | join call =>
        rcases getElem?_of_append after with ⟨_, rfl⟩ | hi
        · rcases call with hp | hp <;> contradiction
        · exact ⟨_, hi⟩
      | launch =>
        rcases getElem?_of_append after with ⟨_, hp⟩ | hi
        · contradiction
        · exact ⟨_, hi⟩
      | move m =>
        obtain ⟨hlt, _⟩ := List.getElem?_eq_some_iff.mp after
        rw [m.length_parts] at hlt
        exact ⟨_, List.getElem?_eq_getElem hlt⟩
  obtain ⟨p, hp⟩ := before
  rw [getElem?_parts] at hp
  obtain ⟨a, ha, _⟩ := Option.map_eq_some_iff.mp hp
  exact ⟨a, ha⟩

private theorem ended_of_cancel {c : Closing} (h : (s.cancel i).activity? i = some (.ended c)) :
    c = .cancelled ∨ s.activity? i = some (.ended c) := by
  have after := part_of_activity h
  unfold cancel at h after
  split at after
  · next l _ ha =>
    cases (part_setActivity (l.lifecycle_cancel s i) ha (.ended .cancelled)).symm.trans after
    exact .inl rfl
  · next cycle ha =>
    cases (part_setActivity (cycle.lifecycle_cancel s i) ha (.ended .cancelled)).symm.trans after
    exact .inl rfl
  · next d ha =>
    cases (part_setActivity (d.lifecycle_cancel s i) ha (.ended .cancelled)).symm.trans after
    exact .inl rfl
  · exact .inr (ended_of_part after)

/-- A flush that returns in a final state has had nothing to do. -/
theorem Final.outcome_of_acts (h : s.Final) (act : Acts s t) {o : Outcome}
    (ht : t.activity? i = some (.ended (.flushed o))) :
    s.activity? i = some (.ended (.flushed o)) ∨ o = .empty := by
  obtain ⟨a, ha⟩ := activity_of_ended act ht
  rcases part_of_acts act (part_of_activity ha) with kept | hs | ⟨_, rfl⟩
  · have hp : a.part = .ended (.flushed o) :=
      Option.some.inj (kept.symm.trans (part_of_activity ht))
    rw [Activity.eq_ended_of_part hp] at ha
    exact .inl ha
  · obtain ⟨c, u, hf, hc⟩ := flush_of_step hs ht
    exact .inr (Cycle.outcome_of_still hc h.queue (h.without_batch hf rfl))
  · rcases ended_of_cancel ht with hc | hs
    · contradiction
    · exact .inl hs

/-- An offer concerns no activity. -/
theorem activity?_offer (s : State) (e : Event) (i : ActivityId) :
    (s.offer e).1.activity? i = s.activity? i := by
  unfold offer
  split
  · rfl
  · split
    · dsimp only
      split <;> rfl
    · rfl

/-- An activity that has ended remains so in every run. -/
theorem ended_run {c : Closing} (h : s.activity? i = some (.ended c)) (later : List Action) :
    (s.run later).activity? i = some (.ended c) := by
  refine run_keeps (P := fun t => t.activity? i = some (.ended c)) (fun {t} e ht => ?_)
    (fun act ht => ended_of_acts act ht) h later
  rw [activity?_offer]
  exact ht

/-- Every flush that returns after everything is over has had nothing to do. -/
theorem Final.outcomes (h : s.Final) (later : List Action) {o : Outcome}
    (ht : (s.run later).activity? i = some (.ended (.flushed o))) :
    s.activity? i = some (.ended (.flushed o)) ∨ o = .empty := by
  have keeps := run_keeps
    (P := fun t => t.Final ∧ ∀ o, t.activity? i = some (.ended (.flushed o)) →
      s.activity? i = some (.ended (.flushed o)) ∨ o = .empty)
    (fun {t} e hp => ⟨hp.1.offer e, fun o ho => hp.2 o (by rwa [activity?_offer] at ho)⟩)
    (fun {t u} act hp => ⟨(hp.1.acts act).1, fun o ho => ?_⟩) ⟨h, fun o ho => .inl ho⟩ later
  · exact keeps.2 o ht
  · rcases hp.1.outcome_of_acts act ho with old | empty
    · exact hp.2 o old
    · exact .inr empty

section progress

theorem advance_step (h : s.step? i = some t) (fuel : Nat) :
    s.advance i (fuel + 1) = t.advance i fuel := by
  rw [advance, h]

theorem advance_ended {c : Closing} (h : s.activity? i = some (.ended c)) (fuel : Nat) :
    s.advance i fuel = s := by
  cases fuel with
  | zero => rfl
  | succ fuel => rw [advance, step?, h]

private theorem activity?_set_self {a a' : Activity} (h : s.activity? i = some a) :
    (s.setActivity i a').activity? i = some a' :=
  getElem?_set_of_some h a'

private theorem activity?_set_ne {j : ActivityId} (hj : j ≠ i) (a' : Activity) :
    (s.setActivity i a').activity? j = s.activity? j :=
  List.getElem?_set_ne (Ne.symm hj)

/-- An activity gives the turn up and ends. -/
structure Yields (i : ActivityId) (s t : State) : Prop where
  turn : t.turn = s.turn.release
  ended : ∃ c, t.activity? i = some (.ended c)
  flush : ∀ c, s.activity? i = some (.flush c) → t.activity? i = some (.ended (.flushed .empty))
  others : ∀ j, j ≠ i → t.activity? j = s.activity? j

/-- With an empty queue, whoever has the turn yields it in one step. -/
theorem yields_of_admitted (queue : s.queue = []) {a : Activity} (ha : s.activity? i = some a)
    (hc : a = .flush .admitted ∨ ∃ sent lost, a = .shutdown (.flushing .admitted sent lost)) :
    ∃ t, s.step? i = some t ∧ Yields i s t := by
  rcases hc with rfl | ⟨sent, lost, rfl⟩
  · refine ⟨s.release.close i (.flushed .empty), ?_, rfl, ⟨_, activity?_set_self ha⟩,
      fun _ _ => activity?_set_self ha, fun j hj => activity?_set_ne hj _⟩
    rw [step?, ha]
    simp only [Cycle.step, if_pos queue]
  · let u := (s.release.move? .finish).getD s.release
    have hu : u.activities = s.activities ∧ u.turn = s.turn.release := by
      change ((s.release.move? .finish).getD s.release).activities = _ ∧
        ((s.release.move? .finish).getD s.release).turn = _
      unfold move?
      cases s.release.phase.next? .finish <;> exact ⟨rfl, rfl⟩
    have hua : u.activity? i = some (.shutdown (.flushing .admitted sent lost)) := by
      rw [activity?, hu.1]
      exact ha
    refine ⟨(u.report (.finished sent lost u.stats.eventsDelivered u.stats.eventsDropped
      u.stats.queueFull)).close i .stopped, ?_, hu.2, ⟨_, activity?_set_self hua⟩,
      fun c hf => ?_, fun j hj => ?_⟩
    · rw [step?, ha]
      simp only [Shutdown.step?, Cycle.step, if_pos queue]
      rfl
    · cases ha.symm.trans hf
    · refine (activity?_set_ne hj _).trans ?_
      change u.activities[j]? = s.activities[j]?
      rw [hu.1]

/-- Whoever was handed the turn looks at the queue. -/
theorem admitted_of_waiting (mine : s.turn.holder = some i) {a : Activity}
    (ha : s.activity? i = some a)
    (hc : a = .flush .waiting ∨ ∃ sent lost, a = .shutdown (.flushing .waiting sent lost)) :
    ∃ a', s.step? i = some (s.setActivity i a') ∧
      ((a = .flush .waiting ∧ a' = .flush .admitted) ∨
        ∃ sent lost, a = .shutdown (.flushing .waiting sent lost) ∧
          a' = .shutdown (.flushing .admitted sent lost)) := by
  rcases hc with rfl | ⟨sent, lost, rfl⟩
  · refine ⟨.flush .admitted, ?_, .inl ⟨rfl, rfl⟩⟩
    rw [step?, ha]
    simp only [Cycle.step, if_pos mine]
  · refine ⟨.shutdown (.flushing .admitted sent lost), ?_, .inr ⟨sent, lost, rfl, rfl⟩⟩
    rw [step?, ha]
    simp only [Shutdown.step?, Cycle.step, if_pos mine]
    rfl

private theorem yields_of_advance (queue : s.queue = []) {a : Activity}
    (ha : s.activity? i = some a)
    (hc : a = .flush .admitted ∨ ∃ sent lost, a = .shutdown (.flushing .admitted sent lost))
    (fuel : Nat) : Yields i s (s.advance i (fuel + 1)) := by
  obtain ⟨t, hs, yields⟩ := yields_of_admitted queue ha hc
  obtain ⟨c, ended⟩ := yields.ended
  rw [advance_step hs fuel, advance_ended ended]
  exact yields

private theorem poll_eq_advance (queue : s.queue = []) : s.poll i = s.advance i (62 + 2) := by
  rw [poll, fuel, queue]
  rfl

/-- Whoever has the turn yields it as soon as it runs. -/
theorem yields_of_holder (queue : s.queue = []) (mine : s.turn.holder = some i) {a : Activity}
    {c : Cycle} (ha : s.activity? i = some a)
    (hc : a = .flush c ∨ ∃ sent lost, a = .shutdown (.flushing c sent lost))
    (inside : c = .waiting ∨ c = .admitted) : Yields i s (s.poll i) := by
  rw [poll_eq_advance queue]
  rcases inside with rfl | rfl
  · obtain ⟨a', hs, ha'⟩ := admitted_of_waiting mine ha hc
    have hset : (s.setActivity i a').activity? i = some a' := activity?_set_self ha
    have hin : a' = .flush .admitted ∨
        ∃ sent lost, a' = .shutdown (.flushing .admitted sent lost) := by
      rcases ha' with ⟨_, h⟩ | ⟨sent, lost, _, h⟩
      · exact .inl h
      · exact .inr ⟨sent, lost, h⟩
    rw [advance_step hs]
    have yields := yields_of_advance (s := s.setActivity i a') queue hset hin 62
    refine ⟨yields.turn, yields.ended, fun c hfl => ?_, fun j hj => ?_⟩
    · rcases ha' with ⟨_, h⟩ | ⟨sent, lost, h, _⟩
      · exact yields.flush .admitted (h ▸ hset)
      · rw [h] at ha
        cases ha.symm.trans hfl
    · exact (yields.others j hj).trans (activity?_set_ne hj a')
  · exact yields_of_advance queue ha hc _

private theorem holder_of_line {turn : Turn} (busy : turn.holder = none → turn.waiting = [])
    {rest : List ActivityId} (line : turn.line = i :: rest) :
    turn.holder = some i ∧ turn.waiting = rest := by
  cases hh : turn.holder with
  | none =>
    rw [Turn.line, hh, busy hh] at line
    contradiction
  | some j =>
    rw [Turn.line_of_holder hh] at line
    obtain ⟨rfl, rfl⟩ := List.cons.inj line
    exact ⟨rfl, rfl⟩

private theorem Final.kinds (h : s.Final) {a : Activity} {c : Cycle}
    (ha : s.activity? i = some a) (hc : a.cycle? = some c) :
    a = .flush c ∨ ∃ sent lost, a = .shutdown (.flushing c sent lost) := by
  cases a with
  | loop l cancelled => exact absurd (part_of_activity ha) (h.done.loops i)
  | flush c' =>
    cases hc
    exact .inl rfl
  | shutdown d =>
    cases d with
    | flushing c' sent lost =>
      cases hc
      exact .inr ⟨sent, lost, rfl⟩
    | _ => contradiction
  | ended => contradiction

/-- In a final state the head of the line yields the turn as soon as it runs. -/
theorem Final.yields_head (h : s.Final) (reached : s.Reached) {rest : List ActivityId}
    (line : s.turn.line = i :: rest) :
    Yields i s (s.poll i) ∧ (s.poll i).turn.line = rest := by
  have inLine : InLine s.books.posts s.turn := reached.audited.line
  obtain ⟨mine, waiting⟩ := holder_of_line inLine.busy line
  have asked : ¬ Idle (cycleAt s.books.posts i) := by
    rw [← inLine.mem, line]
    exact List.mem_cons_self ..
  have cycle : ∃ a c, s.activity? i = some a ∧ a.cycle? = some c ∧ c ≠ .arriving := by
    rw [cycleAt_posts] at asked
    cases ha : s.activity? i with
    | none =>
      rw [ha] at asked
      exact absurd .none asked
    | some a =>
      rw [ha, Option.bind_some] at asked
      cases hc : a.cycle? with
      | none =>
        rw [hc] at asked
        exact absurd .none asked
      | some c =>
        refine ⟨a, c, rfl, hc, fun he => asked ?_⟩
        rw [hc, he]
        exact .arriving
  obtain ⟨a, c, ha, hc, hne⟩ := cycle
  have inside : c = .waiting ∨ c = .admitted := by
    have hb := h.without_batch ha hc
    cases c with
    | arriving => exact absurd rfl hne
    | waiting => exact .inl rfl
    | admitted => exact .inr rfl
    | attempting => contradiction
    | pausing => contradiction
  have yields := yields_of_holder h.queue mine ha (h.kinds ha hc) inside
  refine ⟨yields, ?_⟩
  rw [yields.turn, Turn.line_release, waiting]

private theorem Final.poll (h : s.Final) (reached : s.Reached) (i : ActivityId) :
    (s.poll i).Final ∧ (s.poll i).Reached :=
  ⟨(h.run [.poll i]).1, reached.run [.poll i]⟩

/-- When all in the line have run, the line is empty and every flush in it has returned. -/
theorem Final.line_runs (h : s.Final) (reached : s.Reached) {line : List ActivityId}
    (hl : s.turn.line = line) :
    (s.run (line.map .poll)).Final ∧ (s.run (line.map .poll)).Reached ∧
      (s.run (line.map .poll)).turn.line = [] ∧ ∀ j c, s.activity? j = some (.flush c) →
        (j ∈ line → (s.run (line.map .poll)).activity? j = some (.ended (.flushed .empty))) ∧
        (j ∉ line → (s.run (line.map .poll)).activity? j = some (.flush c)) := by
  induction line generalizing s with
  | nil => exact ⟨h, reached, hl, fun j c hj => ⟨fun hm => by contradiction, fun _ => hj⟩⟩
  | cons i rest ih =>
    obtain ⟨yields, hrest⟩ := h.yields_head reached hl
    obtain ⟨final, reached'⟩ := h.poll reached i
    obtain ⟨hf, hr, hempty, flushes⟩ := ih final reached' hrest
    rw [List.map_cons, run_cons]
    change ((s.poll i).run _).Final ∧ ((s.poll i).run _).Reached ∧
      ((s.poll i).run _).turn.line = [] ∧ _
    refine ⟨hf, hr, hempty, fun j c hj => ?_⟩
    by_cases hi : j = i
    · subst hi
      refine ⟨fun _ => ended_run (yields.flush c hj) _, fun hm => absurd (List.mem_cons_self ..) hm⟩
    · have hj' : (s.poll i).activity? j = some (.flush c) := (yields.others j hi).trans hj
      obtain ⟨inside, outside⟩ := flushes j c hj'
      exact ⟨fun hm => inside ((List.mem_cons.mp hm).resolve_left hi),
        fun hm => outside fun hr => hm (List.mem_cons_of_mem _ hr)⟩

/-- Once those before it in the line have run, a flush returns as soon as it runs. -/
theorem Final.flush_returns (h : s.Final) (reached : s.Reached) {c : Cycle}
    (ha : s.activity? i = some (.flush c)) :
    (s.run ((s.turn.line ++ [i]).map .poll)).activity? i = some (.ended (.flushed .empty)) := by
  obtain ⟨final, reached', empty, flushes⟩ := h.line_runs reached rfl
  obtain ⟨inside, outside⟩ := flushes i c ha
  rw [List.map_append, run_append]
  by_cases hm : i ∈ s.turn.line
  · exact ended_run (inside hm) _
  · have hi := outside hm
    -- Whoever is not in the line has not asked for the turn, and finds it free.
    have hc : c = .arriving := by
      have inLine : InLine s.books.posts s.turn := reached.audited.line
      rw [inLine.mem, not_not, cycleAt_posts, ha] at hm
      cases hm
      rfl
    generalize s.run (s.turn.line.map .poll) = t at final reached' empty hi
    subst hc
    have free : t.turn.holder = none := by
      cases hh : t.turn.holder with
      | none => rfl
      | some j =>
        rw [Turn.line_of_holder hh] at empty
        contradiction
    let u := ({ t with turn := t.turn.request i } : State).setActivity i (.flush .admitted)
    have hs : t.step? i = some u := by
      rw [step?, hi]
      simp only [Cycle.step, if_pos free]
      rfl
    have hu : u.activity? i = some (.flush .admitted) := activity?_set_self hi
    have yields := yields_of_advance (s := u) final.queue hu (.inl rfl) 62
    change (t.poll i).activity? i = _
    rw [poll_eq_advance final.queue, advance_step hs]
    exact yields.flush .admitted hu

end progress

end State

/-- When a shutdown that has begun returns, this is final. From then on nothing is queued or in
flight, every accepted event is delivered or dropped, no batch is taken, handed over or counted any
more, every offer is refused, and there is no loop, not even after a start. Every flush that
returns has had nothing to do; and each one does return, once those before it in the line have run.
A shutdown has begun if at any moment of the run it was more than called: the one that finds another
shutdown in progress returns without having begun. -/
theorem completed_shutdown_is_final {s₀ : State} (made : Made s₀) (actions : List Action)
    {me : ActivityId} {u : State} {d : Shutdown} (moment : u ∈ s₀.moments actions)
    (begun : u.activity? me = some (.shutdown d)) (moved : d ≠ .called)
    (returned : (s₀.run actions).activity? me = some (.ended .stopped)) (later : List Action) :
    let s := s₀.run actions
    let t := s.run later
    t.queue = [] ∧ t.inFlight = [] ∧ (∀ i batch, ¬ t.Carries i batch) ∧
    t.stats.accepted = t.stats.eventsDelivered + t.stats.eventsDropped ∧
    deliveries t.history = deliveries s.history ∧
    (∀ e, (t.offer e).2 = false) ∧
    (∀ i o, t.activity? i = some (.ended (.flushed o)) →
      s.activity? i = some (.ended (.flushed o)) ∨ o = .empty) ∧
    (∀ i c, t.activity? i = some (.flush c) →
      (t.run ((t.turn.line ++ [i]).map .poll)).activity? i = some (.ended (.flushed .empty))) ∧
    t.worker = none ∧ ∀ i l cancelled, t.activity? i ≠ some (.loop l cancelled) := by
  intro s t
  have past : s.Final := by
    obtain ⟨before, during, hb, hd⟩ := State.exists_of_mem_moments moment
    subst hb
    rw [← hd] at returned
    have final := (made.reached before).final_of_returned begun moved returned
    rwa [hd] at final
  obtain ⟨final, quiet⟩ : t.Final ∧ deliveries t.history = deliveries s.history := past.run later
  have ht : t = s₀.run (actions ++ later) := by rw [State.run_append]
  have reached : t.Reached := by
    rw [ht]
    exact made.reached _
  have nobody : ∀ i batch, ¬ t.Carries i batch := by
    intro i batch hi
    obtain ⟨a, c, ha, hc, hb⟩ := hi
    rw [final.without_batch ha hc] at hb
    contradiction
  have flight : t.inFlight = [] := State.inFlight_of_none nobody
  have hq : t.queueLength = 0 := congrArg List.length final.queue
  have accounted : t.stats.accepted =
      t.stats.eventsDelivered + t.stats.eventsDropped + t.queueLength + t.inFlight.length := by
    rw [ht]
    exact made.accepted_eq _
  rw [hq, flight] at accounted
  refine ⟨final.queue, flight, nobody, accounted, quiet,
    fun e => (State.offer_of_closed final.closed e).1, fun i o ho => past.outcomes later ho,
    fun i c hi => final.flush_returns reached hi, final.done.worker, fun i l cancelled hl => ?_⟩
  exact final.done.loops i (State.part_of_activity hl)

/-- An event is offered, the loop is started and parks, and a shutdown ends it and returns. -/
def loopThenShutdown : List Action :=
  offers 1 ++ [.start true, .poll 0, .shutdown, .poll 1, .poll 0, .poll 1]

/-- A shutdown that has waited for a parked loop returns; an offer, a start and a flush that come
later find everything over. -/
theorem shutdown_of_parked_loop_is_final :
    Made (small []) ∧
    (∃ u ∈ (small []).moments loopThenShutdown,
      u.activity? 1 = some (.shutdown (.joining 0 5000))) ∧
    ((small []).run loopThenShutdown).activity? 1 = some (.ended .stopped) ∧
    (((small []).run loopThenShutdown).run
      [.offer (numbered 1), .start true, .flush, .poll 2]).queue = [] ∧
    (((small []).run loopThenShutdown).run
      [.offer (numbered 1), .start true, .flush, .poll 2]).activity? 2 =
        some (.ended (.flushed .empty)) := by
  obtain ⟨u, moment, begun⟩ : ∃ u ∈ (small []).moments loopThenShutdown,
      u.activity? 1 = some (.shutdown (.joining 0 5000)) :=
    ⟨_, List.mem_of_getElem? (i := 7) rfl, rfl⟩
  have returned : ((small []).run loopThenShutdown).activity? 1 = some (.ended .stopped) := rfl
  have final := completed_shutdown_is_final (made_small []) loopThenShutdown moment begun
    Shutdown.noConfusion returned [.offer (numbered 1), .start true, .flush, .poll 2]
  refine ⟨made_small [], ⟨u, moment, begun⟩, returned, final.1, ?_⟩
  decide +kernel

end EventRelay.Publisher
