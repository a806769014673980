import EventRelay.Proofs.Publisher.Bursts
import EventRelay.Proofs.Publisher.Returning
import EventRelay.Proofs.Publisher.Frames

/-!
# The course of a flush

What a flush comes to is fixed when it begins: by the front of the queue, the settings and the
answers to the next two attempts. Its course says when each attempt is made and when it ends, and
how the batch is counted. A flush that is run whenever it can go on passes through the stages of
its course one after the other, each at its time.
-/

namespace EventRelay.Publisher

/-- Whether the collector takes a batch in time. -/
def Response.succeeds (r : Response) (limit : Nat) : Bool :=
  decide (r.ending = .success ∧ r.stall ≤ limit)

/-- An attempt that is looked at in time has its result exactly at its end, and the result is a
success exactly if the collector takes the batch in time. -/
theorem Response.ends_in_time {r : Response} {begun now limit : Nat} {result : Ending}
    (since : begun ≤ now) (due : now ≤ begun + r.duration limit)
    (h : r.resultAfter (now - begun) limit = some result) :
    now = begun + r.duration limit ∧ (r.succeeds limit = true ↔ result = .success) := by
  have late : r.duration limit ≤ now - begun := by
    rw [← Response.resultAfter_isSome_iff, h]
    rfl
  refine ⟨by omega, ?_⟩
  rw [succeeds, decide_eq_true_iff]
  unfold resultAfter at h
  unfold duration at due late
  split at h
  · next answered =>
    obtain rfl := Option.some.inj h
    rw [if_neg answered.2] at due
    exact and_iff_left (by omega)
  · next unanswered =>
    split at h
    · next expired =>
      obtain rfl := Option.some.inj h
      refine iff_of_false (fun taken => unanswered ?_) Ending.noConfusion
      rw [taken.1]
      exact ⟨by omega, Ending.noConfusion⟩
    · contradiction

/-- A batch that was handed over. -/
structure Handing where
  /-- By whom. -/
  actor : ActivityId
  /-- When. -/
  time : Nat
  /-- The batch. -/
  batch : Envelope
  /-- Whether a second time. -/
  second : Bool
  deriving DecidableEq, Repr

/-- The batch that was handed over. -/
def Observation.handing? : Observation → Option Handing
  | .handed actor time batch second => some ⟨actor, time, batch, second⟩
  | _ => none

/-- All attempts, in order. -/
def handings (history : List Observation) : List Handing := reading Observation.handing? history

theorem handings_tale (s : State) : handings s.books.tale = handings s.history :=
  reading_filter (fun o h => by unfold Observation.handing?; split <;> trivial) _

/-- The counters without those of offers. -/
def Stats.shipping (s : Stats) : Stats := { s with accepted := 0, rejected := 0, queueFull := 0 }

/-- What a flush meets. -/
structure Course where
  /-- The settings. -/
  settings : Settings
  /-- When it begins. -/
  start : Nat
  /-- Its batch. -/
  batch : Envelope
  /-- The answer to its first attempt. -/
  first : Response
  /-- The answer to its second attempt, if it makes one. -/
  second : Response

/-- How far a flush with a batch has come. -/
inductive Stage
  /-- The first attempt is under way. -/
  | first
  /-- The second attempt is to come. -/
  | pause
  /-- The second attempt is under way. -/
  | second
  /-- It has returned. -/
  | returned
  deriving DecidableEq, Repr

namespace Course

variable (c : Course)

/-- When the first attempt ends: by its answer, or at the limit. -/
def firstEnd : Nat := c.start + c.first.duration c.settings.deliveryTimeout

/-- Whether there is a second attempt. -/
def again : Bool := !c.first.succeeds c.settings.deliveryTimeout && c.settings.retryOnce

/-- When the second attempt begins. -/
def secondStart : Nat := c.firstEnd + c.settings.retryDelay

/-- When the last attempt ends. -/
def finish : Nat :=
  if c.again then c.secondStart + c.second.duration c.settings.deliveryTimeout else c.firstEnd

/-- Whether one of the attempts succeeds in time. -/
def sent : Bool :=
  c.first.succeeds c.settings.deliveryTimeout ||
    (c.again && c.second.succeeds c.settings.deliveryTimeout)

/-- What the flush returns. -/
def outcome : Outcome := if c.sent then .delivered c.batch.size else .dropped c.batch.size

/-- The attempts that are made up to a stage. -/
def attempts (me : ActivityId) (stage : Stage) : List Handing :=
  ⟨me, c.start, c.batch, false⟩ ::
    match stage with
    | .first => []
    | .pause => []
    | .second => [⟨me, c.secondStart, c.batch, true⟩]
    | .returned => if c.again then [⟨me, c.secondStart, c.batch, true⟩] else []

/-- The counters at a stage. -/
def count (stats : Stats) : Stage → Stats
  | .first => stats
  | .pause => { stats with retries := stats.retries + 1 }
  | .second => { stats with retries := stats.retries + 1 }
  | .returned =>
    let stats := if c.again then { stats with retries := stats.retries + 1 } else stats
    if c.sent then stats.recordDelivered c.batch.size else stats.recordDropped c.batch.size

/-- The answers that are left at a stage. -/
def left (tr : Transport) : Stage → Transport
  | .first => tr.next.2
  | .pause => tr.next.2
  | .second => tr.next.2.next.2
  | .returned => if c.again then tr.next.2.next.2 else tr.next.2

/-- The flush at a stage. -/
def activity : Stage → Activity
  | .first => .flush (.attempting c.batch false c.start c.first)
  | .pause => .flush (.pausing c.batch c.secondStart)
  | .second => .flush (.attempting c.batch true c.secondStart c.second)
  | .returned => .ended (.flushed c.outcome)

/-- When a stage is entered. -/
def since : Stage → Nat
  | .first => c.start
  | .pause => c.firstEnd
  | .second => c.secondStart
  | .returned => c.finish

/-- When a stage is left. -/
def due : Stage → Nat
  | .first => c.firstEnd
  | .pause => c.secondStart
  | .second => c.finish
  | .returned => c.finish

/-- The stage of the last attempt. -/
def last : Stage := if c.again then .second else .first

end Course

/-- How many stages may follow. -/
def Stage.rank : Stage → Nat
  | .first => 3
  | .pause => 2
  | .second => 1
  | .returned => 0

/-- The course of a flush that begins now. -/
def State.course (s : State) (tr : Transport) : Course :=
  ⟨s.settings, s.now, s.parcel, tr.next.1, tr.next.2.next.1⟩

/-- A flush that began in `s` has come to a stage of its course, and the events `es` were accepted
meanwhile. -/
structure OnCourse (s : State) (tr : Transport) (me : ActivityId) (stage : Stage)
    (es : List Event) (t : State) : Prop where
  /-- Only a flush with a second attempt waits for one or makes one. -/
  possible : stage = .pause ∨ stage = .second → (s.course tr).again = true
  /-- The flush is at its stage. -/
  activity : t.activity? me = some ((s.course tr).activity stage)
  /-- It has used up the answers to its attempts. -/
  transport : t.transport = some ((s.course tr).left tr stage)
  /-- The settings are the same. -/
  settings : t.settings = s.settings
  /-- The queue is what was left behind the batch and what came meanwhile. -/
  queue : t.queue = s.queue.drop s.settings.batchSize.value ++ es
  /-- Nobody else has counted a batch. -/
  stats : t.stats.shipping = ((s.course tr).count s.stats stage).shipping
  /-- Nobody else has handed over a batch. -/
  handed : handings t.history = handings s.history ++ (s.course tr).attempts me stage
  /-- The stage was entered at its time. -/
  since : (s.course tr).since stage ≤ t.now
  /-- It is not overdue. -/
  due : t.now ≤ (s.course tr).due stage

namespace State

variable {s t : State} {me : ActivityId}

/-- An attempt of a flush that does not break down ends with a result. After a success the batch is
delivered; after a failure there is a second attempt to come, or the batch is dropped. -/
theorem step_attempting {batch : Envelope} {second : Bool} {begun : Nat} {r : Response}
    (ha : s.activity? me = some (.flush (.attempting batch second begun r)))
    (steady : r.ending ≠ .breakdown) (hs : s.step? me = some t) :
    ∃ result, r.resultAfter (s.now - begun) s.settings.deliveryTimeout = some result ∧
      ((result = .success ∧ t = ((s.observe (.answered me s.now .success)).settleDelivered
          batch).release.close me (.flushed (.delivered batch.size))) ∨
        ∃ e, result = .failure e ∧
          ((s.settings.retryOnce = true ∧ second = false ∧ ∃ u,
              u = (s.observe (.answered me s.now (.failure e))).report
                (.retrying e batch.size s.settings.retryDelay) ∧
              t = ({ u with stats := { u.stats with retries := u.stats.retries + 1 } }).setActivity
                me (.flush (.pausing batch (s.now + s.settings.retryDelay)))) ∨
            ((s.settings.retryOnce = false ∨ second = true) ∧
              t = ((s.observe (.answered me s.now (.failure e))).settleDropped batch e).release.close
                me (.flushed (.dropped batch.size))))) := by
  have step := steps_of_step hs
  cases step with
  | cut other => cases ha.symm.trans other
  | loop other => cases ha.symm.trans other
  | shutdown other => cases ha.symm.trans other
  | goes other hc =>
    cases ha.symm.trans other
    have goes := Cycle.steps_of_step hc
    cases goes with
    | retry answer allowed told =>
      exact ⟨_, answer, .inr ⟨_, rfl, .inl ⟨allowed, rfl, _, told, rfl⟩⟩⟩
  | ends other hc =>
    cases ha.symm.trans other
    have ends := Cycle.steps_of_step hc
    cases ends with
    | deliver answer => exact ⟨_, answer, .inl ⟨rfl, rfl⟩⟩
    | drop answer last => exact ⟨_, answer, .inr ⟨_, rfl, .inr ⟨last, rfl⟩⟩⟩
  | breaks other hc =>
    cases ha.symm.trans other
    have breaks := Cycle.steps_of_step hc
    cases breaks with
    | breakDown answer =>
      rcases Response.result_of_resultAfter answer steady with he | ⟨_, he⟩ <;> contradiction

/-- A flush that waits for its second attempt makes it. -/
theorem step_pausing {batch : Envelope} {resume : Nat}
    (ha : s.activity? me = some (.flush (.pausing batch resume))) (hs : s.step? me = some t) :
    resume ≤ s.now ∧
      t = (s.hand me batch true).1.setActivity me (.flush (s.hand me batch true).2) := by
  rw [step?, ha] at hs
  simp only [Cycle.step] at hs
  by_cases late : resume ≤ s.now
  · rw [if_pos late] at hs
    exact ⟨late, (Option.some.inj hs).symm⟩
  · rw [if_neg late] at hs
    contradiction

/-- An attempt that has come to its end lets a flush go on. -/
theorem exists_step_attempting {batch : Envelope} {second : Bool} {begun : Nat} {r : Response}
    (ha : s.activity? me = some (.flush (.attempting batch second begun r)))
    (steady : r.ending ≠ .breakdown)
    (late : r.duration s.settings.deliveryTimeout ≤ s.now - begun) :
    ∃ t, s.step? me = some t := by
  obtain ⟨result, answer⟩ := Option.isSome_iff_exists.mp
    ((Response.resultAfter_isSome_iff ..).mpr late)
  rw [step?, ha]
  simp only [Cycle.step, answer]
  rcases Response.result_of_resultAfter answer steady with rfl | ⟨e, rfl⟩
  · exact ⟨_, rfl⟩
  · cases s.settings.retryOnce && !second <;> exact ⟨_, rfl⟩

/-- The state in which a flush that found the turn free has it. -/
def admitted (s : State) (me : ActivityId) : State :=
  ({ s with turn := s.turn.request me }).setActivity me (.flush .admitted)

/-- A flush that finds the turn free takes it. -/
theorem step_arriving (called : s.activity? me = some (.flush .arriving))
    (free : s.turn.holder = none) : s.step? me = some (s.admitted me) ∧
      (s.admitted me).activity? me = some (.flush .admitted) := by
  refine ⟨?_, getElem?_set_of_some called _⟩
  rw [step?, called]
  simp only [Cycle.step, if_pos free]
  rfl

/-- The next answer is the one to the batch that is handed over. -/
theorem hand_of_supplied {tr : Transport} (h : s.transport = some tr) (me : ActivityId)
    (batch : Envelope) (second : Bool) : s.hand me batch second =
      (({ s with transport := some tr.next.2 }).observe (.handed me s.now batch second),
        .attempting batch second s.now tr.next.1) := by
  rw [hand, nextResponse, h]

end State

namespace Course

variable {c : Course}

/-- No stage is left before it is entered. -/
theorem since_le_due {stage : Stage}
    (possible : stage = .pause ∨ stage = .second → c.again = true) :
    c.since stage ≤ c.due stage := by
  cases stage with
  | first => exact Nat.le_add_right _ _
  | pause => exact Nat.le_add_right _ _
  | second =>
    rw [since, due, finish, if_pos (possible (.inr rfl))]
    exact Nat.le_add_right _ _
  | returned => exact Nat.le_refl _

/-- Every stage is left by the end. -/
theorem due_le_finish {stage : Stage}
    (possible : stage = .pause ∨ stage = .second → c.again = true) :
    c.due stage ≤ c.finish := by
  cases stage with
  | first =>
    rw [due, finish]
    split
    · rw [secondStart, Nat.add_assoc]
      exact Nat.le_add_right _ _
    · exact Nat.le_refl _
  | pause =>
    rw [due, finish, if_pos (possible (.inl rfl))]
    exact Nat.le_add_right _ _
  | second => exact Nat.le_refl _
  | returned => exact Nat.le_refl _

theorem last_of_again (again : c.again = true) : c.last = .second := by
  rw [last, again]
  rfl

theorem last_of_once (once : c.again = false) : c.last = .first := by
  rw [last, once]
  rfl

/-- With the last attempt a flush is over. -/
theorem due_last (c : Course) : c.due c.last = c.finish := by
  cases again : c.again with
  | true => rw [last_of_again again, due]
  | false => rw [last_of_once again, due, finish, again, if_neg Bool.false_ne_true]

/-- After the last attempt no answer is used up. -/
theorem left_last (c : Course) (tr : Transport) : c.left tr c.last = c.left tr .returned := by
  rw [last]
  cases again : c.again <;> simp only [left, again, if_true, Bool.false_eq_true, if_false]

/-- After the last attempt none is made. -/
theorem attempts_last (c : Course) (me : ActivityId) :
    c.attempts me c.last = c.attempts me .returned := by
  rw [last]
  cases again : c.again <;> simp only [attempts, again, if_true, Bool.false_eq_true, if_false]

/-- When a flush is over its batch is counted. -/
theorem count_returned (c : Course) (stats : Stats) : c.count stats .returned =
    if c.sent then (c.count stats c.last).recordDelivered c.batch.size
    else (c.count stats c.last).recordDropped c.batch.size := by
  rw [last]
  cases again : c.again <;> simp only [count, again, if_true, Bool.false_eq_true, if_false]

end Course

namespace OnCourse

variable {s t u : State} {tr : Transport} {me : ActivityId} {stage : Stage} {es : List Event}

/-- The course goes on with another stage. -/
private theorem enter (h : OnCourse s tr me stage es t) (stage' : Stage)
    (possible : stage' = .pause ∨ stage' = .second → (s.course tr).again = true)
    (activities : u.activities = t.activities.set me ((s.course tr).activity stage'))
    (transport : u.transport = some ((s.course tr).left tr stage'))
    (settings : u.settings = t.settings) (queue : u.queue = t.queue)
    (stats : u.stats.shipping = ((s.course tr).count s.stats stage').shipping)
    (handed : handings u.history = handings s.history ++ (s.course tr).attempts me stage')
    (now : u.now = t.now) (since : t.now = (s.course tr).since stage') :
    OnCourse s tr me stage' es u where
  possible := possible
  activity := by
    rw [State.activity?, activities]
    exact getElem?_set_of_some h.activity _
  transport := transport
  settings := settings.trans h.settings
  queue := queue.trans h.queue
  stats := stats
  handed := handed
  since := Nat.le_of_eq (by rw [now, since])
  due := by
    rw [now, since]
    exact Course.since_le_due possible

/-- With its last attempt a flush returns. -/
private theorem finish (h : OnCourse s tr me stage es t) (sent : Bool)
    (outcome : (s.course tr).sent = sent) (last : stage = (s.course tr).last)
    (now : t.now = (s.course tr).due stage)
    (activities : u.activities = t.activities.set me (.ended (.flushed
      (if sent then .delivered (s.course tr).batch.size else .dropped (s.course tr).batch.size))))
    (transport : u.transport = t.transport) (settings : u.settings = t.settings)
    (queue : u.queue = t.queue)
    (stats : u.stats = if sent then t.stats.recordDelivered (s.course tr).batch.size
      else t.stats.recordDropped (s.course tr).batch.size)
    (handed : handings u.history = handings t.history) (same : u.now = t.now) :
    OnCourse s tr me .returned es u := by
  subst outcome last
  refine h.enter .returned (fun he => by cases he <;> contradiction) activities ?_ settings queue
    ?_ ?_ same (now.trans (s.course tr).due_last)
  · rw [transport, h.transport, Course.left_last]
  · rw [stats, Course.count_returned]
    split
    · exact congrArg (fun x : Stats => x.recordDelivered (s.course tr).batch.size) h.stats
    · exact congrArg (fun x : Stats => x.recordDropped (s.course tr).batch.size) h.stats
  · rw [handed, h.handed, Course.attempts_last]

/-- From its first attempt a flush goes on to wait for the second one, or returns. -/
private theorem step_first (h : OnCourse s tr me .first es t)
    (steady : tr.next.1.ending ≠ .breakdown) (hs : t.step? me = some u) :
    OnCourse s tr me .pause es u ∨ OnCourse s tr me .returned es u := by
  obtain ⟨result, answer, ending⟩ := State.step_attempting h.activity steady hs
  rw [h.settings] at answer ending
  obtain ⟨now, success⟩ := Response.ends_in_time h.since h.due answer
  rcases ending with ⟨rfl, rfl⟩ | ⟨e, rfl, more⟩
  · have sent : (s.course tr).first.succeeds (s.course tr).settings.deliveryTimeout = true :=
      success.mpr rfl
    have once : (s.course tr).again = false := by rw [Course.again, sent]; rfl
    refine .inr (h.finish true ?_ (Course.last_of_once once).symm now rfl rfl rfl rfl rfl ?_ rfl)
    · rw [Course.sent, sent, Bool.true_or]
    · exact (reading_skip rfl).trans (reading_skip rfl)
  · have failed : (s.course tr).first.succeeds (s.course tr).settings.deliveryTimeout = false :=
      eq_false_of_ne_true fun taken => Ending.noConfusion (success.mp taken)
    have allowed : (s.course tr).again = s.settings.retryOnce := by
      rw [Course.again, failed, Bool.not_false, Bool.true_and]
      rfl
    rcases more with ⟨retry, _, v, rfl, rfl⟩ | ⟨final, rfl⟩
    · refine .inl (h.enter .pause (fun _ => allowed.trans retry) ?_ h.transport rfl rfl ?_ ?_ rfl
        now)
      · have due : t.now = (s.course tr).firstEnd := now
        rw [Course.activity, Course.secondStart, ← due]
        rfl
      · exact congrArg (fun x : Stats => { x with retries := x.retries + 1 }) h.stats
      · exact ((reading_skip rfl).trans (reading_skip rfl)).trans h.handed
    · have once : (s.course tr).again = false :=
        allowed.trans (final.resolve_right Bool.false_ne_true)
      refine .inr (h.finish false ?_ (Course.last_of_once once).symm now rfl rfl rfl rfl rfl ?_ rfl)
      · rw [Course.sent, failed, once]
        rfl
      · exact (reading_skip rfl).trans (reading_skip rfl)

/-- From its waiting a flush goes on to its second attempt. -/
private theorem step_pause (h : OnCourse s tr me .pause es t) (hs : t.step? me = some u) :
    OnCourse s tr me .second es u := by
  obtain ⟨late, rfl⟩ := State.step_pausing h.activity hs
  have now : t.now = (s.course tr).secondStart := Nat.le_antisymm h.due late
  rw [State.hand_of_supplied h.transport]
  refine h.enter .second (fun _ => h.possible (.inl rfl)) ?_ rfl rfl rfl h.stats ?_ rfl now
  · rw [Course.activity, ← now]
    rfl
  · have told : handings (.handed me t.now (s.course tr).batch true :: t.history) =
        handings t.history ++ [⟨me, t.now, (s.course tr).batch, true⟩] := reading_find rfl
    refine told.trans ?_
    rw [h.handed, now, List.append_assoc]
    rfl

/-- From its second attempt a flush returns. -/
private theorem step_second (h : OnCourse s tr me .second es t)
    (steady : tr.next.2.next.1.ending ≠ .breakdown) (hs : t.step? me = some u) :
    OnCourse s tr me .returned es u := by
  have again : (s.course tr).again = true := h.possible (.inr rfl)
  have ends : (s.course tr).due .second =
      (s.course tr).secondStart + (s.course tr).second.duration s.settings.deliveryTimeout := by
    rw [Course.due, Course.finish, if_pos again]
    rfl
  have failed : (s.course tr).first.succeeds (s.course tr).settings.deliveryTimeout = false := by
    rw [Course.again, Bool.and_eq_true, Bool.not_eq_true'] at again
    exact again.1
  obtain ⟨result, answer, ending⟩ := State.step_attempting h.activity steady hs
  rw [h.settings] at answer ending
  obtain ⟨now, success⟩ := Response.ends_in_time h.since (ends ▸ h.due) answer
  have second : (s.course tr).sent =
      (s.course tr).second.succeeds (s.course tr).settings.deliveryTimeout := by
    rw [Course.sent, failed, again, Bool.false_or, Bool.true_and]
  have last := (Course.last_of_again again).symm
  rcases ending with ⟨rfl, rfl⟩ | ⟨e, rfl, ⟨_, never, _⟩ | ⟨_, rfl⟩⟩
  · refine h.finish true (second.trans (success.mpr rfl)) last (now.trans ends.symm)
      rfl rfl rfl rfl rfl ?_ rfl
    exact (reading_skip rfl).trans (reading_skip rfl)
  · contradiction
  · refine h.finish false (second.trans ?_) last (now.trans ends.symm) rfl rfl rfl rfl rfl ?_ rfl
    · exact eq_false_of_ne_true fun taken => Ending.noConfusion (success.mp taken)
    · exact (reading_skip rfl).trans (reading_skip rfl)

/-- A step of the flush leads to a later stage. -/
theorem step (h : OnCourse s tr me stage es t) (first : tr.next.1.ending ≠ .breakdown)
    (second : tr.next.2.next.1.ending ≠ .breakdown) (hs : t.step? me = some u) :
    ∃ stage', stage'.rank < stage.rank ∧ OnCourse s tr me stage' es u := by
  cases stage with
  | first =>
    rcases h.step_first first hs with h | h
    · exact ⟨.pause, by decide, h⟩
    · exact ⟨.returned, by decide, h⟩
  | pause => exact ⟨.second, by decide, h.step_pause hs⟩
  | second => exact ⟨.returned, by decide, h.step_second second hs⟩
  | returned =>
    rw [State.step?, h.activity] at hs
    contradiction

/-- At the end of its stage a flush can go on. -/
theorem exists_step (h : OnCourse s tr me stage es t) (first : tr.next.1.ending ≠ .breakdown)
    (second : tr.next.2.next.1.ending ≠ .breakdown) (more : stage ≠ .returned)
    (now : t.now = (s.course tr).due stage) : ∃ u, t.step? me = some u := by
  cases stage with
  | first =>
    refine State.exists_step_attempting h.activity first ?_
    rw [h.settings, now]
    exact Nat.le_of_eq (Nat.add_sub_cancel_left ..).symm
  | pause =>
    have due : (s.course tr).secondStart ≤ t.now := Nat.le_of_eq now.symm
    refine ⟨(t.hand me (s.course tr).batch true).1.setActivity me
      (.flush (t.hand me (s.course tr).batch true).2), ?_⟩
    rw [State.step?, h.activity]
    simp only [Course.activity, Cycle.step, if_pos due]
  | second =>
    refine State.exists_step_attempting h.activity second ?_
    rw [h.settings, now, Course.due, Course.finish, if_pos (h.possible (.inr rfl))]
    exact Nat.le_of_eq (Nat.add_sub_cancel_left ..).symm
  | returned => exact absurd rfl more

/-- A flush waits for the end of its stage. -/
theorem deadline (h : OnCourse s tr me stage es t) (more : stage ≠ .returned) :
    t.deadline me = some ((s.course tr).due stage) := by
  rw [State.deadline, h.activity]
  cases stage with
  | first =>
    rw [h.settings]
    rfl
  | pause => rfl
  | second =>
    rw [h.settings, Course.due, Course.finish, if_pos (h.possible (.inr rfl))]
    rfl
  | returned => exact absurd rfl more

/-- A flush has ended exactly if its course is over. -/
theorem isEnded_iff (h : OnCourse s tr me stage es t) :
    t.isEnded me = true ↔ stage = .returned := by
  rw [State.isEnded, h.activity]
  cases stage with
  | returned => exact iff_of_true rfl rfl
  | _ => exact iff_of_false Bool.false_ne_true Stage.noConfusion

/-- A flush that finds the turn free and something queued is at its first attempt after two
steps. -/
theorem begin (called : s.activity? me = some (.flush .arriving)) (free : s.turn.holder = none)
    (supplied : s.transport = some tr) (queued : s.queue ≠ []) :
    ∃ u, s.step? me = some (s.admitted me) ∧ (s.admitted me).step? me = some u ∧
      OnCourse s tr me .first [] u := by
  obtain ⟨enters, entered⟩ := s.step_arriving called free
  let t := s.admitted me
  have takes : t.step? me = some ((t.dispatch me tr.next.2).setActivity me
      (.flush (.attempting t.parcel false t.now tr.next.1))) := by
    have cycle := State.cycle_dispatches me (show t.transport = some tr from supplied)
      (show t.queue ≠ [] from queued) t.settings.retryOnce
    rw [State.step?, entered]
    simp only [cycle]
  refine ⟨_, enters, takes, {
    possible := fun he => by cases he <;> contradiction
    activity := getElem?_set_of_some entered _
    transport := rfl
    settings := rfl
    queue := (List.append_nil _).symm
    stats := rfl
    handed := ?_
    since := Nat.le_refl _
    due := Nat.le_add_right _ _ }⟩
  have told : handings (.handed me t.now t.parcel false :: .drained me t.parcel.events ::
      t.history) = handings (.drained me t.parcel.events :: t.history) ++
        [⟨me, t.now, t.parcel, false⟩] := reading_find rfl
  refine told.trans ?_
  exact congrArg (· ++ [(⟨me, t.now, t.parcel, false⟩ : Handing)]) (reading_skip rfl)

end OnCourse

end EventRelay.Publisher
