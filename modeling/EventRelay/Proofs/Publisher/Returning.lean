import EventRelay.Proofs.Publisher.AfterShutdown
import EventRelay.Proofs.Publisher.Breakdowns

/-!
# A shutdown can return

A shutdown waits for the loop no longer than its limit, and then cuts it off. What is left are its
own flush cycles. Alone, each of them has the turn at once, takes a batch off the queue and has an
answer after the delivery limit at the latest. So unless the transport breaks down there is a way
for a shutdown that has begun to return, whatever the collector answers.
-/

namespace EventRelay.Publisher

/-- No answer to come is a breakdown. -/
structure Transport.Steady (t : Transport) : Prop where
  coming : ∀ r ∈ t.coming, r.ending ≠ .breakdown
  later : t.later.ending ≠ .breakdown

theorem Transport.Steady.next {t : Transport} (h : t.Steady) :
    t.next.1.ending ≠ .breakdown ∧ t.next.2.Steady := by
  unfold Transport.next
  split
  · exact ⟨h.later, h⟩
  · next r rest hc =>
    have first : r ∈ t.coming := by simp [hc]
    refine ⟨h.coming r first, fun r' hr => ?_, h.later⟩
    have later : r' ∈ t.coming := by
      rw [hc]
      exact List.mem_cons_of_mem r hr
    exact h.coming r' later

/-- An attempt does not end in silence, and in a breakdown only if this is the answer to it. -/
theorem Response.result_of_resultAfter {r : Response} {elapsed limit : Nat} {result : Ending}
    (h : r.resultAfter elapsed limit = some result) (steady : r.ending ≠ .breakdown) :
    result = .success ∨ ∃ e, result = .failure e := by
  unfold resultAfter at h
  split at h
  · next hr =>
    obtain rfl := Option.some.inj h
    cases he : r.ending with
    | success => exact .inl rfl
    | failure e => exact .inr ⟨e, rfl⟩
    | silence => exact absurd he hr.2
    | breakdown => exact absurd he steady
  · split at h
    · exact .inr ⟨_, (Option.some.inj h).symm⟩
    · contradiction

/-- After the delivery limit an attempt has a result. -/
theorem Response.exists_resultAfter (r : Response) {elapsed limit : Nat} (late : limit ≤ elapsed) :
    ∃ result, r.resultAfter elapsed limit = some result := by
  apply Option.isSome_iff_exists.mp
  rw [Response.resultAfter_isSome_iff]
  unfold duration
  split <;> omega

namespace State

variable {s t u : State} {me : ActivityId} {c c' : Cycle} {sent lost : Nat}

/-- No answer to come is a breakdown. -/
def Steady (s : State) : Prop := ∀ t, s.transport = some t → t.Steady

/-- There is a continuation in which a shutdown returns. -/
def CanReturn (me : ActivityId) (s : State) : Prop :=
  ∃ during t, (s.run during).step? me = some t ∧ t.activity? me = some (.ended .stopped)

theorem CanReturn.of_run (actions : List Action) (h : (s.run actions).CanReturn me) :
    s.CanReturn me := by
  obtain ⟨during, t, hs, ht⟩ := h
  refine ⟨actions ++ during, t, ?_, ht⟩
  rw [run_append]
  exact hs

theorem CanReturn.of_step (hs : s.step? me = some t) (h : t.CanReturn me) : s.CanReturn me := by
  have ht : s.run [.step me] = t := by
    rw [run_cons, run_nil, apply_step hs]
  exact CanReturn.of_run [.step me] (ht ▸ h)

/-- Nobody else wants the turn, and a shutdown is in its flush cycle `c`. -/
structure Solo (me : ActivityId) (c : Cycle) (s : State) : Prop where
  stage : ∃ sent lost, s.activity? me = some (.shutdown (.flushing c sent lost))
  waiting : s.turn.waiting = []
  steady : s.Steady

/-- The shutdown goes on with its flush cycle. -/
theorem Solo.goes (h : s.Solo me c) (hc : c.step s me false = .goes t c')
    (activities : t.activities = s.activities) (waiting : t.turn.waiting = []) (steady : t.Steady) :
    ∃ u, s.step? me = some u ∧ u.Solo me c' ∧ u.queue = t.queue ∧ u.now = t.now ∧
      u.settings = t.settings := by
  obtain ⟨sent, lost, ha⟩ := h.stage
  refine ⟨t.setShutdown me (.flushing c' sent lost), ?_, ⟨⟨sent, lost, ?_⟩, waiting, steady⟩,
    rfl, rfl, rfl⟩
  · rw [step?, ha]
    simp only [Shutdown.step?, hc]
  · refine getElem?_set_of_some (x := .shutdown (.flushing c sent lost)) ?_ _
    rw [activities]
    exact ha

/-- The shutdown has sent or lost a batch and begins another flush cycle. -/
theorem Solo.again (h : s.Solo me c) {o : Outcome} (hc : c.step s me false = .ends t o)
    (whole : o ≠ .empty) (activities : t.activities = s.activities) (waiting : t.turn.waiting = [])
    (steady : t.Steady) :
    ∃ u, s.step? me = some u ∧ u.Solo me .arriving ∧ u.turn = t.turn ∧ u.queue = t.queue := by
  obtain ⟨sent, lost, ha⟩ := h.stage
  have stage (sent' lost' : Nat) :
      (t.setShutdown me (.flushing .arriving sent' lost')).activity? me =
        some (.shutdown (.flushing .arriving sent' lost')) := by
    refine getElem?_set_of_some (x := .shutdown (.flushing c sent lost)) ?_ _
    rw [activities]
    exact ha
  cases o with
  | empty => exact absurd rfl whole
  | delivered n =>
    refine ⟨t.setShutdown me (.flushing .arriving (sent + n) lost), ?_,
      ⟨⟨_, _, stage _ _⟩, waiting, steady⟩, rfl, rfl⟩
    rw [step?, ha]
    simp only [Shutdown.step?, hc]
  | dropped n =>
    refine ⟨t.setShutdown me (.flushing .arriving sent (lost + n)), ?_,
      ⟨⟨_, _, stage _ _⟩, waiting, steady⟩, rfl, rfl⟩
    rw [step?, ha]
    simp only [Shutdown.step?, hc]

/-- The shutdown finds nothing in the queue and returns. -/
theorem Solo.finishes (h : s.Solo me .admitted) (queue : s.queue = []) : s.CanReturn me := by
  obtain ⟨sent, lost, ha⟩ := h.stage
  let u := (s.release.move? .finish).getD s.release
  have same : u.activities = s.activities := by
    change ((s.release.move? .finish).getD s.release).activities = _
    unfold move?
    cases s.release.phase.next? .finish <;> rfl
  refine ⟨[], (u.report (.finished sent lost u.stats.eventsDelivered u.stats.eventsDropped
    u.stats.queueFull)).close me .stopped, ?_, ?_⟩
  · rw [run_nil, step?, ha]
    simp only [Shutdown.step?, Cycle.step, if_pos queue]
    rfl
  · refine getElem?_set_of_some (x := .shutdown (.flushing .admitted sent lost)) ?_ _
    change u.activities[me]? = _
    rw [same]
    exact ha

/-- An answer to come is given to a batch that is handed over. -/
private theorem hand_steady (me : ActivityId) (batch : Envelope) (second : Bool)
    (supplied : s.transport ≠ none) (steady : s.Steady) :
    ∃ u r, s.hand me batch second = (u, .attempting batch second u.now r) ∧
      u.activities = s.activities ∧ u.turn = s.turn ∧ u.queue = s.queue ∧
      r.ending ≠ .breakdown ∧ u.Steady := by
  cases ht : s.transport with
  | none => exact absurd ht supplied
  | some tr =>
    obtain ⟨answer, left⟩ := (steady tr ht).next
    unfold hand nextResponse
    rw [ht]
    refine ⟨_, tr.next.1, rfl, rfl, rfl, rfl, answer, fun t h => ?_⟩
    cases h
    exact left

private theorem release_free (h : s.turn.waiting = []) :
    s.turn.release.holder = none ∧ s.turn.release.waiting = [] := by
  rw [Turn.release, h]
  exact ⟨rfl, rfl⟩

/-- The shutdown takes a batch off the queue, and hands it over if there is a way to the
collector. -/
theorem Solo.takes (h : s.Solo me .admitted) (queued : s.queue ≠ []) :
    ∃ u, s.step? me = some u ∧ u.queue.length < s.queue.length ∧
      ((u.Solo me .arriving ∧ u.turn.holder = none) ∨
        ∃ batch begun r, u.Solo me (.attempting batch false begun r) ∧ r.ending ≠ .breakdown) := by
  have shorter : (s.queue.drop s.settings.batchSize.value).length < s.queue.length := by
    have some := List.length_pos_iff.mpr queued
    have pos := s.settings.batchSize.pos
    rw [List.length_drop]
    omega
  have step := Cycle.steps .admitted s me false
  generalize hr : Cycle.step s me false .admitted = r at step
  cases step with
  | empty nothing => exact absurd nothing queued
  | discard _ left taken unsupplied =>
    subst left taken
    obtain ⟨free, none⟩ := release_free h.waiting
    obtain ⟨u, hs, solo, turn, queue⟩ := h.again hr Outcome.noConfusion rfl none h.steady
    refine ⟨u, hs, ?_, .inl ⟨solo, ?_⟩⟩
    · rw [queue]
      exact shorter
    · rw [turn]
      exact free
  | ship _ left taken supplied =>
    subst left taken
    obtain ⟨v, r, handed, activities, turn, queue, answer, steady⟩ :=
      hand_steady me ⟨s.settings.source, ⟨s.now⟩, (s.drain me).2⟩ false supplied h.steady
    have hv : Cycle.step s me false .admitted = .goes v
        (.attempting ⟨s.settings.source, ⟨s.now⟩, (s.drain me).2⟩ false v.now r) := by
      rw [hr]
      exact congrArg (fun x => CycleStep.goes x.1 x.2) handed
    obtain ⟨u, hs, solo, hq, _⟩ := h.goes hv activities (by rw [turn]; exact h.waiting) steady
    refine ⟨u, hs, ?_, .inr ⟨_, _, r, solo, answer⟩⟩
    rw [hq, queue]
    exact shorter

/-- After the delivery limit the batch is counted, and the next flush cycle begins. -/
theorem Solo.settles {batch : Envelope} {second : Bool} {begun : Nat} {r : Response}
    (h : s.Solo me (.attempting batch second begun r)) (answer : r.ending ≠ .breakdown) :
    ∃ u, (s.run [.elapse (begun + s.settings.deliveryTimeout)]).step? me = some u ∧
      u.Solo me .arriving ∧ u.turn.holder = none ∧ u.queue = s.queue := by
  let w := s.run [.elapse (begun + s.settings.deliveryTimeout)]
  have solo : w.Solo me (.attempting batch second begun r) := ⟨h.stage, h.waiting, h.steady⟩
  have late : w.settings.deliveryTimeout ≤ w.now - begun := by
    change s.settings.deliveryTimeout ≤ s.now + (begun + s.settings.deliveryTimeout) - begun
    omega
  obtain ⟨result, hr⟩ := r.exists_resultAfter late
  obtain ⟨free, none⟩ := release_free h.waiting
  rcases Response.result_of_resultAfter hr answer with rfl | ⟨e, rfl⟩
  · have hc : Cycle.step w me false (.attempting batch second begun r) =
        .ends ((w.observe (.answered me w.now .success)).settleDelivered batch).release
          (.delivered batch.size) := by
      simp only [Cycle.step, hr]
    obtain ⟨u, hs, again, turn, queue⟩ := solo.again hc Outcome.noConfusion rfl none h.steady
    exact ⟨u, hs, again, by rw [turn]; exact free, queue⟩
  · have hc : Cycle.step w me false (.attempting batch second begun r) =
        .ends ((w.observe (.answered me w.now (.failure e))).settleDropped batch e).release
          (.dropped batch.size) := by
      simp only [Cycle.step, hr, Bool.false_and, Bool.false_eq_true, if_false]
    obtain ⟨u, hs, again, turn, queue⟩ := solo.again hc Outcome.noConfusion rfl none h.steady
    exact ⟨u, hs, again, by rw [turn]; exact free, queue⟩

/-- Alone, a shutdown empties the queue batch by batch and returns. -/
theorem Solo.returns (h : s.Solo me .arriving) (free : s.turn.holder = none) :
    s.CanReturn me := by
  -- Every flush cycle leaves less in the queue.
  induction hn : s.queue.length using Nat.strongRecOn generalizing s with
  | ind n ih =>
    have enter : Cycle.step s me false .arriving =
        .goes { s with turn := s.turn.request me } .admitted := by
      simp only [Cycle.step, if_pos free]
    have waiting : (s.turn.request me).waiting = [] := by
      rw [Turn.request, free]
      exact h.waiting
    obtain ⟨t, hs, admitted, hq, _⟩ := h.goes enter rfl waiting h.steady
    have same : t.queue.length = n := (congrArg List.length hq).trans hn
    refine .of_step hs ?_
    by_cases queue : t.queue = []
    · exact admitted.finishes queue
    · obtain ⟨u, hu, less, ⟨solo, unheld⟩ | ⟨batch, begun, r, solo, answer⟩⟩ :=
        admitted.takes queue
      · exact .of_step hu (ih _ (same ▸ less) solo unheld rfl)
      · obtain ⟨v, hv, again, unheld, hq'⟩ := solo.settles answer
        refine .of_step hu (.of_run _ (.of_step hv (ih _ ?_ again unheld rfl)))
        rw [hq']
        exact same ▸ less

private theorem transport_cancel (c : Cycle) (s : State) (me : ActivityId) :
    (c.cancel s me).transport = s.transport := by
  cases c <;> rfl

/-- Cutting the loop off leaves the way to the collector as it is. -/
private theorem transport_cancel_loop (l : Loop) (s : State) (me : ActivityId) :
    (l.cancel s me).transport = s.transport := by
  cases l with
  | flushing tick c => exact transport_cancel c s me
  | _ => rfl

/-- What is cut off has ended before or ends now, and all else that concerns it is done first. -/
theorem cancel_cases (s : State) (i : ActivityId) :
    (s.cancel i = s ∧ ∀ a, s.activity? i = some a → ∃ c, a = .ended c) ∨
      ∃ u a, s.activity? i = some a ∧ s.cancel i = u.close i .cancelled ∧ s.Spares u ∧
        u.transport = s.transport := by
  unfold cancel
  split
  · next l c ha =>
    exact .inr ⟨_, _, ha, rfl, spares_cancel_loop l s i, transport_cancel_loop l s i⟩
  · next c ha => exact .inr ⟨_, _, ha, rfl, c.spares_cancel s i, transport_cancel c s i⟩
  · next d ha =>
    refine .inr ⟨_, _, ha, rfl, spares_cancel_shutdown d s i, ?_⟩
    cases d with
    | flushing c sent lost => exact transport_cancel c s i
    | _ => rfl
  · next noLoop noFlush noShutdown =>
    refine .inl ⟨rfl, fun a ha => ?_⟩
    cases a with
    | loop l c => exact absurd ha (noLoop l c)
    | flush c => exact absurd ha (noFlush c)
    | shutdown d => exact absurd ha (noShutdown d)
    | ended c => exact ⟨c, rfl⟩

/-- An activity that is cut off ends, and nothing else changes that a shutdown needs. -/
theorem apply_cancel (s : State) {i : ActivityId}
    (other : ∀ l c, s.activity? i ≠ some (.loop l c)) :
    (s.apply (.cancel i)).transport = s.transport ∧
      (∀ j, j ≠ i → (s.apply (.cancel i)).activity? j = s.activity? j) ∧
      ∀ a, (s.apply (.cancel i)).activity? i = some a → ∃ c, a = .ended c := by
  have cut : s.apply (.cancel i) = s.cancel i := by
    rw [apply]
    split
    · next l c ha => exact absurd ha (other l c)
    · rfl
  rw [cut]
  rcases s.cancel_cases i with ⟨same, ended⟩ | ⟨u, a, ha, closed, spares, transport⟩
  · rw [same]
    exact ⟨rfl, fun _ _ => rfl, ended⟩
  · rw [closed]
    refine ⟨transport, fun j hj => ?_, fun b hb => ?_⟩
    · change (u.activities.set i (.ended .cancelled))[j]? = _
      rw [List.getElem?_set_ne (Ne.symm hj), spares.1]
      rfl
    · change (u.activities.set i (.ended .cancelled))[i]? = _ at hb
      rw [spares.1, getElem?_set_of_some ha] at hb
      exact ⟨_, (Option.some.inj hb).symm⟩

/-- Without a loop all activities of a list can be cut off. -/
theorem run_cancel (others : List ActivityId) (quiet : ∀ i l c, s.activity? i ≠ some (.loop l c)) :
    (s.run (others.map .cancel)).transport = s.transport ∧
      (∀ j ∉ others, (s.run (others.map .cancel)).activity? j = s.activity? j) ∧
      ∀ i ∈ others, ∀ a, (s.run (others.map .cancel)).activity? i = some a → ∃ c, a = .ended c := by
  induction others generalizing s with
  | nil => exact ⟨rfl, fun _ _ => rfl, fun i hi => by contradiction⟩
  | cons i rest ih =>
    obtain ⟨transport, kept, ended⟩ := s.apply_cancel (quiet i)
    have still : ∀ j l c, (s.apply (.cancel i)).activity? j ≠ some (.loop l c) := by
      intro j l c hj
      by_cases hi : j = i
      · subst hi
        obtain ⟨_, he⟩ := ended _ hj
        contradiction
      · rw [kept j hi] at hj
        exact quiet j l c hj
    obtain ⟨transport', kept', ended'⟩ := ih still
    rw [List.map_cons, run_cons]
    refine ⟨transport'.trans transport, fun j hj => ?_, fun j hj a ha => ?_⟩
    · obtain ⟨hi, hr⟩ : j ≠ i ∧ j ∉ rest := by simpa using hj
      exact (kept' j hr).trans (kept j hi)
    · by_cases hr : j ∈ rest
      · exact ended' j hr a ha
      · obtain rfl := (List.mem_cons.mp hj).resolve_right hr
        rw [kept' j hr] at ha
        exact ended a ha

/-- Among activities that have ended, a shutdown that has not asked for its turn finds it free. -/
theorem Reached.turn_free (reached : s.Reached) {sent lost : Nat}
    (ha : s.activity? me = some (.shutdown (.flushing .arriving sent lost)))
    (ended : ∀ i a, i ≠ me → s.activity? i = some a → ∃ c, a = .ended c) :
    s.turn.holder = none ∧ s.turn.waiting = [] := by
  have inLine : InLine s.books.posts s.turn := reached.audited.line
  have free : s.turn.holder = none := by
    cases hh : s.turn.holder with
    | none => rfl
    | some i =>
      have asked : i ∈ s.turn.line := by
        rw [Turn.line_of_holder hh]
        exact List.mem_cons_self ..
      rw [inLine.mem, cycleAt_posts] at asked
      refine absurd ?_ asked
      by_cases hi : i = me
      · subst hi
        rw [ha]
        exact .arriving
      · cases hb : s.activity? i with
        | none => exact .none
        | some b =>
          obtain ⟨c, rfl⟩ := ended i b hi hb
          exact .none
  exact ⟨free, inLine.busy free⟩

/-- A shutdown that has ended its waiting for the loop can return. -/
theorem Reached.can_return (reached : s.Reached) (steady : s.Steady) {sent lost : Nat}
    (ha : s.activity? me = some (.shutdown (.flushing .arriving sent lost))) : s.CanReturn me := by
  have quiet : ∀ i l c, s.activity? i ≠ some (.loop l c) := by
    intro i l c hi
    exact (reached.sound.done (part_of_activity ha)).loops i (part_of_activity hi)
  let others := (List.range s.activities.length).filter (· ≠ me)
  have mem (i : ActivityId) : i ∈ others ↔ i < s.activities.length ∧ i ≠ me := by
    simp [others]
  obtain ⟨transport, kept, ended⟩ := run_cancel others quiet
  have mine : me ∉ others := fun h => ((mem me).mp h).2 rfl
  have stage := (kept me mine).trans ha
  have alone : ∀ i a, i ≠ me → (s.run (others.map .cancel)).activity? i = some a →
      ∃ c, a = .ended c := by
    intro i a hi hia
    by_cases ho : i ∈ others
    · exact ended i ho a hia
    · rw [kept i ho] at hia
      obtain ⟨hlt, _⟩ := List.getElem?_eq_some_iff.mp hia
      exact absurd ((mem i).mpr ⟨hlt, hi⟩) ho
  obtain ⟨free, waiting⟩ := (reached.run _).turn_free stage alone
  have solo : (s.run (others.map .cancel)).Solo me .arriving := by
    refine ⟨⟨sent, lost, stage⟩, waiting, fun t ht => steady t ?_⟩
    rw [← transport]
    exact ht
  exact .of_run _ (solo.returns free)

/-- A shutdown that waits for an activity that has ended goes on to its flush cycles. -/
private theorem step_of_gone {d : Shutdown} {loop : ActivityId} {c : Closing}
    (ha : s.activity? me = some (.shutdown d))
    (waits : (∃ deadline, d = .joining loop deadline) ∨ d = .cancelling loop)
    (gone : s.activity? loop = some (.ended c)) :
    s.step? me = some (s.setShutdown me (.flushing .arriving 0 0)) := by
  have ended : s.isEnded loop = true := by rw [isEnded, gone]
  rw [step?, ha]
  rcases waits with ⟨deadline, rfl⟩ | rfl <;> simp only [Shutdown.step?, ended, if_true]

/-- After its limit a shutdown tells the loop to end, and the loop ends. -/
private theorem cuts_loop {loop : ActivityId} {deadline : Nat} {l : Loop} {cancelled : Bool}
    (ha : s.activity? me = some (.shutdown (.joining loop deadline)))
    (hl : s.activity? loop = some (.loop l cancelled)) :
    ∃ more, (s.run more).activity? me = some (.shutdown (.cancelling loop)) ∧
      (s.run more).activity? loop = some (.ended .cancelled) ∧
      (s.run more).transport = s.transport := by
  have other : me ≠ loop := by
    rintro rfl
    cases ha.symm.trans hl
  let w := s.elapse deadline
  let told := w.report (.loopOverdue w.settings.shutdownTimeout)
  let asked := told.setActivity loop (.loop l true)
  let x := asked.setShutdown me (.cancelling loop)
  have late : deadline ≤ w.now := Nat.le_add_left ..
  have alive : w.isEnded loop = false := by
    rw [isEnded, show w.activity? loop = _ from hl]
  have hx : w.step? me = some x := by
    have cut : told.cancelLoop loop = asked := by
      rw [cancelLoop, show told.activity? loop = _ from hl]
    rw [step?, show w.activity? me = _ from ha]
    simp only [Shutdown.step?, alive, if_pos late]
    exact congrArg (fun v => some (v.setShutdown me (.cancelling loop))) cut
  have mine : x.activity? me = some (.shutdown (.cancelling loop)) := by
    refine getElem?_set_of_some (x := .shutdown (.joining loop deadline)) ?_ _
    exact (List.getElem?_set_ne (Ne.symm other)).trans ha
  have doomed : x.activity? loop = some (.loop l true) :=
    (List.getElem?_set_ne other).trans (getElem?_set_of_some hl _)
  have hy : x.step? loop = some ((l.cancel x loop).close loop .cancelled) := by
    rw [step?, doomed]
  refine ⟨[.elapse deadline, .step me, .step loop], ?_⟩
  rw [run_cons, run_cons, run_cons, run_nil, show s.apply (.elapse deadline) = w from rfl,
    apply_step hx, apply_step hy]
  have spares := spares_cancel_loop l x loop
  refine ⟨?_, ?_, transport_cancel_loop l x loop⟩
  · refine (List.getElem?_set_ne (Ne.symm other)).trans ?_
    rw [spares.1]
    exact mine
  · refine getElem?_set_of_some (x := .loop l true) ?_ _
    rw [spares.1]
    exact doomed

/-- The waiting of a shutdown comes to an end. -/
theorem ends_waiting {loop : ActivityId} {deadline : Nat}
    (ha : s.activity? me = some (.shutdown (.joining loop deadline)))
    (known : (∃ l c, s.activity? loop = some (.loop l c)) ∨
      ∃ c, s.activity? loop = some (.ended c)) :
    ∃ more, (s.run more).activity? me = some (.shutdown (.flushing .arriving 0 0)) ∧
      (s.run more).transport = s.transport := by
  rcases known with ⟨l, c, hl⟩ | ⟨c, gone⟩
  · obtain ⟨more, mine, gone, transport⟩ := cuts_loop ha hl
    refine ⟨more ++ [.step me], ?_⟩
    rw [run_append, run_cons, run_nil, apply_step (step_of_gone mine (.inr rfl) gone)]
    exact ⟨getElem?_set_of_some mine _, transport⟩
  · refine ⟨[.step me], ?_⟩
    rw [run_cons, run_nil, apply_step (step_of_gone ha (.inl ⟨deadline, rfl⟩) gone)]
    exact ⟨getElem?_set_of_some ha _, rfl⟩

/-- A shutdown that may begin closes the publisher and then waits for the loop, if there is one, or
begins its flush cycles. -/
theorem begins_of_called (called : s.activity? me = some (.shutdown .called))
    (allowed : s.phase ≠ .stopping) :
    ∃ u d, s.move? .stop = some u ∧ s.step? me = some (u.closing.setShutdown me d) ∧
      ((u.worker = none ∧ d = .flushing .arriving 0 0) ∨ ∃ loop, u.worker = some loop ∧
        d = .joining loop (u.now + u.settings.shutdownTimeout)) := by
  obtain ⟨u, moved⟩ : ∃ u, s.move? .stop = some u := by
    unfold move?
    cases hp : s.phase with
    | stopped => exact ⟨_, rfl⟩
    | running => exact ⟨_, rfl⟩
    | stopping => exact absurd hp allowed
  rw [step?, called]
  cases hw : u.worker with
  | none =>
    refine ⟨u, _, moved, ?_, .inl ⟨hw, rfl⟩⟩
    simp only [Shutdown.step?, moved, hw]
    rfl
  | some loop =>
    refine ⟨u, _, moved, ?_, .inr ⟨loop, hw, rfl⟩⟩
    simp only [Shutdown.step?, moved, hw]
    rfl

/-- The beginning of a shutdown is the end of its being called, and concerns nobody else. -/
theorem activity_of_begun (called : s.activity? me = some (.shutdown .called))
    (moved : s.move? .stop = some u) (d : Shutdown) :
    (u.closing.setShutdown me d).activity? me = some (.shutdown d) ∧
      ∀ j, j ≠ me → (u.closing.setShutdown me d).activity? j = s.activity? j := by
  have same : u.activities = s.activities := (spares_move moved).1
  constructor
  · refine getElem?_set_of_some (x := .shutdown .called) ?_ _
    change u.activities[me]? = _
    rw [same]
    exact called
  · intro j hj
    refine (List.getElem?_set_ne (Ne.symm hj)).trans ?_
    change u.activities[j]? = _
    rw [same]
    rfl

end State

/-- A shutdown that begins can return, unless the transport breaks down. -/
theorem Made.can_return {s₀ : State} (made : Made s₀) (actions : List Action) {me : ActivityId}
    {v : State} (called : (s₀.run actions).activity? me = some (.shutdown .called))
    (allowed : (s₀.run actions).phase ≠ .stopping) (step : (s₀.run actions).step? me = some v)
    (steady : v.Steady) : v.CanReturn me := by
  have reached := (made.reached actions).run [.step me]
  rw [State.run_cons, State.run_nil, State.apply_step step] at reached
  have manned := made.manned actions
  have resting := (made.sound actions).resting
  generalize s₀.run actions = s at called allowed step manned resting
  obtain ⟨u, d, moved, hs, begun⟩ := State.begins_of_called called allowed
  obtain rfl : u.closing.setShutdown me d = v := Option.some.inj (hs.symm.trans step)
  obtain ⟨mine, others⟩ := State.activity_of_begun called moved d
  generalize u.closing.setShutdown me d = v at reached steady mine others
  rcases begun with ⟨_, rfl⟩ | ⟨loop, worker, rfl⟩
  · exact reached.can_return steady mine
  · -- The worker is that of the running publisher, so that it lives or was taken down.
    have before : s.worker = some loop := by
      rw [← worker]
      exact (congrArg Lifecycle.worker (State.lifecycle_move moved).2).symm
    have running : s.phase = .running := by
      by_contra idle
      cases before.symm.trans (resting idle)
    obtain ⟨i, hi, known⟩ := manned running
    obtain rfl : i = loop := Option.some.inj (hi.symm.trans before)
    have found : (∃ l c, v.activity? i = some (.loop l c)) ∨
        ∃ c, v.activity? i = some (.ended c) := by
      have other {a : Activity} (ha : s.activity? i = some a) (h : a ≠ .shutdown .called) :
          i ≠ me := by
        rintro rfl
        exact h (Option.some.inj (ha.symm.trans called))
      rcases known with lives | broken
      · obtain ⟨l, c, hl⟩ := State.loop_of_part lives
        exact .inl ⟨l, c, (others i (other hl Activity.noConfusion)).trans hl⟩
      · have ended := State.ended_of_part broken
        exact .inr ⟨_, (others i (other ended Activity.noConfusion)).trans ended⟩
    obtain ⟨more, stage, transport⟩ := State.ends_waiting mine found
    refine .of_run more ((reached.run more).can_return (fun t ht => steady t ?_) stage)
    rw [← transport]
    exact ht

end EventRelay.Publisher
