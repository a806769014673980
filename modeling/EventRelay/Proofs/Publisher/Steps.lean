import EventRelay.Publisher

/-!
# What activities can do

A step of a flush cycle, of the loop or of a shutdown is one of a few things, each with the
conditions under which it is done. They are listed here once. Whatever is shown of all steps is
shown case by case along these lists, without looking at how a step is chosen.
-/

namespace EventRelay.Publisher

/-- What a step of a flush cycle can be. -/
inductive Cycle.Steps (s : State) (me : ActivityId) (retry : Bool) : Cycle → CycleStep → Prop
  /-- The turn is free. -/
  | enter (free : s.turn.holder = none) :
    Steps s me retry .arriving (.goes { s with turn := s.turn.request me } .admitted)
  /-- Somebody has the turn. -/
  | wait (taken : s.turn.holder ≠ none) :
    Steps s me retry .arriving (.goes { s with turn := s.turn.request me } .waiting)
  /-- The turn was handed on. -/
  | wake (mine : s.turn.holder = some me) : Steps s me retry .waiting (.goes s .admitted)
  /-- Somebody else has the turn. -/
  | stay (others : s.turn.holder ≠ some me) : Steps s me retry .waiting .waits
  /-- There is nothing to do. -/
  | empty (nothing : s.queue = []) : Steps s me retry .admitted (.ends s.release .empty)
  /-- A batch is taken, and there is no way to the collector. -/
  | discard {t : State} {events : List Event} (queued : s.queue ≠ []) (left : t = (s.drain me).1)
    (taken : events = (s.drain me).2) (unsupplied : t.transport = none) :
    Steps s me retry .admitted
      (.ends (({ t with stats := t.stats.recordDropped events.length }).report
        (.noCollector events.length ((events.take sampleSize).map Event.id))).release
        (.dropped events.length))
  /-- A batch is taken and handed over. -/
  | ship {t : State} {events : List Event} (queued : s.queue ≠ []) (left : t = (s.drain me).1)
    (taken : events = (s.drain me).2) (supplied : t.transport ≠ none) :
    Steps s me retry .admitted
      (.goes (t.hand me ⟨t.settings.source, ⟨t.now⟩, events⟩ false).1
        (t.hand me ⟨t.settings.source, ⟨t.now⟩, events⟩ false).2)
  /-- The attempt has no result yet, or will never have one. -/
  | pend {batch : Envelope} {second : Bool} {begun : Nat} {response : Response} :
    Steps s me retry (.attempting batch second begun response) .waits
  /-- The attempt has succeeded. -/
  | deliver {batch : Envelope} {second : Bool} {begun : Nat} {response : Response}
    (answer : response.resultAfter (s.now - begun) s.settings.deliveryTimeout = some .success) :
    Steps s me retry (.attempting batch second begun response)
      (.ends (((s.observe (.answered me s.now .success)).settleDelivered batch).release)
        (.delivered batch.size))
  /-- The first attempt has failed, and a second one is to come. -/
  | retry {batch : Envelope} {begun : Nat} {response : Response} {e : DeliveryError}
    (answer : response.resultAfter (s.now - begun) s.settings.deliveryTimeout = some (.failure e))
    (allowed : retry = true) {t : State}
    (told : t = (s.observe (.answered me s.now (.failure e))).report
      (.retrying e batch.size s.settings.retryDelay)) :
    Steps s me retry (.attempting batch false begun response)
      (.goes { t with stats := { t.stats with retries := t.stats.retries + 1 } }
        (.pausing batch (s.now + s.settings.retryDelay)))
  /-- The last attempt has failed. -/
  | drop {batch : Envelope} {second : Bool} {begun : Nat} {response : Response} {e : DeliveryError}
    (answer : response.resultAfter (s.now - begun) s.settings.deliveryTimeout = some (.failure e))
    (last : retry = false ∨ second = true) :
    Steps s me retry (.attempting batch second begun response)
      (.ends (((s.observe (.answered me s.now (.failure e))).settleDropped batch e).release)
        (.dropped batch.size))
  /-- The transport has broken down. -/
  | breakDown {batch : Envelope} {second : Bool} {begun : Nat} {response : Response}
    (answer : response.resultAfter (s.now - begun) s.settings.deliveryTimeout = some .breakdown) :
    Steps s me retry (.attempting batch second begun response)
      (.breaks (((s.observe (.answered me s.now .breakdown)).abandon batch).release))
  /-- It is too early for the second attempt. -/
  | pause {batch : Envelope} {resume : Nat} (early : s.now < resume) :
    Steps s me retry (.pausing batch resume) .waits
  /-- The second attempt begins. -/
  | resume {batch : Envelope} {resume : Nat} (due : resume ≤ s.now) :
    Steps s me retry (.pausing batch resume)
      (.goes (s.hand me batch true).1 (s.hand me batch true).2)

/-- Every step of a flush cycle is one of these. -/
theorem Cycle.steps (c : Cycle) (s : State) (me : ActivityId) (retry : Bool) :
    c.Steps s me retry (c.step s me retry) := by
  cases c with
  | arriving =>
    rw [step]
    split
    · next free => exact .enter free
    · next taken => exact .wait taken
  | waiting =>
    rw [step]
    split
    · next mine => exact .wake mine
    · next others => exact .stay others
  | admitted =>
    rw [step]
    split
    · next nothing => exact .empty nothing
    · next queued =>
      dsimp only
      split
      · next unsupplied => exact .discard queued rfl rfl unsupplied
      · next supplied => exact .ship queued rfl rfl (by rw [supplied]; exact Option.some_ne_none _)
  | attempting batch second begun response =>
    rw [step]
    split
    · exact .pend
    · next result answer =>
      cases result with
      | success => exact .deliver answer
      | failure e =>
        cases retry with
        | false => exact .drop answer (.inl rfl)
        | true =>
          cases second with
          | false => exact .retry answer rfl rfl
          | true => exact .drop answer (.inr rfl)
      | silence => exact .pend
      | breakdown => exact .breakDown answer
  | pausing batch resume =>
    rw [step]
    split
    · next due => exact .resume due
    · next early => exact .pause (Nat.lt_of_not_le early)

/-- What a step can be of which the result is known. -/
theorem Cycle.steps_of_step {c : Cycle} {s : State} {me : ActivityId} {retry : Bool}
    {r : CycleStep} (h : c.step s me retry = r) : c.Steps s me retry r := by
  rw [← h]
  exact c.steps s me retry

/-- What a step of the loop can be. -/
inductive Loop.Steps (s : State) (me : ActivityId) : Loop → State → Prop
  /-- It runs for the first time. -/
  | create : Steps s me .created (s.setLoop me (.resting (s.now + s.settings.flushInterval)))
  /-- It ends instead of waiting. -/
  | exit {tick : Nat} (shut : s.shutdown = true) : Steps s me (.resting tick) (s.exitLoop me)
  /-- It begins to wait. -/
  | park {tick : Nat} (up : s.shutdown = false) :
    Steps s me (.resting tick) (s.setLoop me (.parked tick))
  /-- The signal of a shutdown wakes it, and it ends. -/
  | leave {tick : Nat}
    (ready : (Branch.order s.toss.1).find? (s.branchReady me tick) = some .shutdown) :
    Steps s me (.parked tick) ((s.toss.2.takeBranch me .shutdown).exitLoop me)
  /-- A full batch wakes it. -/
  | wake {tick : Nat}
    (ready : (Branch.order s.toss.1).find? (s.branchReady me tick) = some .wake) :
    Steps s me (.parked tick) ((s.toss.2.takeBranch me .wake).setLoop me (.draining tick))
  /-- Its tick wakes it. -/
  | tick {tick : Nat}
    (ready : (Branch.order s.toss.1).find? (s.branchReady me tick) = some .tick) :
    Steps s me (.parked tick)
      ((s.toss.2.takeBranch me .tick).setLoop me (.draining (s.nextTick tick)))
  /-- It joins the waiters. -/
  | join {tick : Nat} (ready : (Branch.order s.toss.1).find? (s.branchReady me tick) = none)
    (absent : (s.wake.waiting.contains me && s.shutdownSignal.waiting.contains me) = false) :
    Steps s me (.parked tick) (s.joinSignals me)
  /-- It stops draining, because it has to end. -/
  | rest {tick : Nat} (shut : s.shutdown = true) :
    Steps s me (.draining tick) (s.setLoop me (.resting tick))
  /-- It begins a flush cycle. -/
  | flush {tick : Nat} (up : s.shutdown = false) :
    Steps s me (.draining tick) (s.setLoop me (.flushing tick .arriving))
  /-- Its flush cycle goes on. -/
  | goes {tick : Nat} {c c' : Cycle} {t : State}
    (h : c.step s me s.settings.retryOnce = .goes t c') :
    Steps s me (.flushing tick c) (t.setLoop me (.flushing tick c'))
  /-- Its flush cycle is over, and less than a batch is left. -/
  | done {tick : Nat} {c : Cycle} {t : State} {o : Outcome}
    (h : c.step s me s.settings.retryOnce = .ends t o)
    (short : t.queue.length < t.settings.batchSize.value) :
    Steps s me (.flushing tick c) (t.setLoop me (.resting tick))
  /-- Its flush cycle is over, and there is another batch. -/
  | more {tick : Nat} {c : Cycle} {t : State} {o : Outcome}
    (h : c.step s me s.settings.retryOnce = .ends t o)
    (long : t.settings.batchSize.value ≤ t.queue.length) :
    Steps s me (.flushing tick c) (t.setLoop me (.draining tick))
  /-- The transport takes it down. -/
  | breaks {tick : Nat} {c : Cycle} {t : State}
    (h : c.step s me s.settings.retryOnce = .breaks t) :
    Steps s me (.flushing tick c) (t.close me .broken)

/-- Every step of the loop is one of these. -/
theorem Loop.steps_of_step {l : Loop} {s t : State} {me : ActivityId} (h : l.step? s me = some t) :
    l.Steps s me t := by
  cases l with
  | created =>
    cases h
    exact .create
  | resting tick =>
    rw [step?] at h
    split at h
    · next shut =>
      cases h
      exact .exit shut
    · next up =>
      cases h
      exact .park (eq_false_of_ne_true up)
  | parked tick =>
    simp only [step?] at h
    split at h
    · next ready =>
      cases h
      exact .leave ready
    · next ready =>
      cases h
      exact .wake ready
    · next ready =>
      cases h
      exact .tick ready
    · next ready =>
      split at h
      · contradiction
      · next absent =>
        cases h
        exact .join ready (eq_false_of_ne_true absent)
  | draining tick =>
    rw [step?] at h
    split at h
    · next shut =>
      cases h
      exact .rest shut
    · next up =>
      cases h
      exact .flush (eq_false_of_ne_true up)
  | flushing tick c =>
    rw [step?] at h
    split at h
    · contradiction
    · next u c' hc =>
      cases h
      exact .goes hc
    · next u o hc =>
      split at h
      · next short =>
        cases h
        exact .done hc short
      · next long =>
        cases h
        exact .more hc (Nat.le_of_not_lt long)
    · next u hc =>
      cases h
      exact .breaks hc

/-- A publisher is closed by a shutdown that takes charge of its loop. -/
def State.closing (s : State) : State :=
  { s with
    closed := true
    shutdown := true
    shutdownSignal := s.shutdownSignal.notify
    worker := none }

/-- What a step of a shutdown can be. -/
inductive Shutdown.Steps (s : State) (me : ActivityId) : Shutdown → State → Prop
  /-- Another one came first. -/
  | again (refused : s.move? .stop = none) :
    Steps s me .called ((s.report (.stopRepeated s.phase)).close me .stopped)
  /-- It begins, and there is no loop. -/
  | begin {t : State} (moved : s.move? .stop = some t) (alone : t.worker = none) :
    Steps s me .called (t.closing.setShutdown me (.flushing .arriving 0 0))
  /-- It begins to wait for the loop. -/
  | await {t : State} {loop : ActivityId} (moved : s.move? .stop = some t)
    (worker : t.worker = some loop) :
    Steps s me .called
      (t.closing.setShutdown me (.joining loop (t.now + t.settings.shutdownTimeout)))
  /-- The loop has ended. -/
  | join {loop : ActivityId} {deadline : Nat} (gone : s.isEnded loop = true) :
    Steps s me (.joining loop deadline) (s.setShutdown me (.flushing .arriving 0 0))
  /-- The loop has not ended in time. -/
  | overdue {loop : ActivityId} {deadline : Nat} (alive : s.isEnded loop = false)
    (late : deadline ≤ s.now) :
    Steps s me (.joining loop deadline)
      (((s.report (.loopOverdue s.settings.shutdownTimeout)).cancelLoop loop).setShutdown me
        (.cancelling loop))
  /-- The loop has been cut off. -/
  | joinLate {loop : ActivityId} (gone : s.isEnded loop = true) :
    Steps s me (.cancelling loop) (s.setShutdown me (.flushing .arriving 0 0))
  /-- Its flush cycle goes on. -/
  | goes {sent lost : Nat} {c c' : Cycle} {t : State} (h : c.step s me false = .goes t c') :
    Steps s me (.flushing c sent lost) (t.setShutdown me (.flushing c' sent lost))
  /-- Nothing is left, and it returns. -/
  | finish {sent lost : Nat} {c : Cycle} {t u : State} (h : c.step s me false = .ends t .empty)
    (moved : u = (t.move? .finish).getD t) :
    Steps s me (.flushing c sent lost) ((u.report (.finished sent lost u.stats.eventsDelivered
      u.stats.eventsDropped u.stats.queueFull)).close me .stopped)
  /-- A batch was sent. -/
  | sent {sent lost n : Nat} {c : Cycle} {t : State}
    (h : c.step s me false = .ends t (.delivered n)) :
    Steps s me (.flushing c sent lost) (t.setShutdown me (.flushing .arriving (sent + n) lost))
  /-- A batch was lost. -/
  | lost {sent lost n : Nat} {c : Cycle} {t : State}
    (h : c.step s me false = .ends t (.dropped n)) :
    Steps s me (.flushing c sent lost) (t.setShutdown me (.flushing .arriving sent (lost + n)))
  /-- The transport takes it down. -/
  | breaks {sent lost : Nat} {c : Cycle} {t : State} (h : c.step s me false = .breaks t) :
    Steps s me (.flushing c sent lost) (t.close me .broken)

/-- Every step of a shutdown is one of these. -/
theorem Shutdown.steps_of_step {d : Shutdown} {s t : State} {me : ActivityId}
    (h : d.step? s me = some t) : d.Steps s me t := by
  cases d with
  | called =>
    simp only [step?] at h
    split at h
    · next refused =>
      cases h
      exact .again refused
    · next moved =>
      split at h
      · next alone =>
        cases h
        exact .begin moved alone
      · next worker =>
        cases h
        exact .await moved worker
  | joining loop deadline =>
    simp only [step?] at h
    split at h
    · next gone =>
      cases h
      exact .join gone
    · next alive =>
      split at h
      · next late =>
        cases h
        exact .overdue (eq_false_of_ne_true alive) late
      · contradiction
  | cancelling loop =>
    rw [step?] at h
    split at h
    · next gone =>
      cases h
      exact .joinLate gone
    · contradiction
  | flushing c sent lost =>
    simp only [step?] at h
    split at h
    · contradiction
    · next hc =>
      cases h
      exact .goes hc
    · next hc =>
      cases h
      exact .finish hc rfl
    · next hc =>
      cases h
      exact .sent hc
    · next hc =>
      cases h
      exact .lost hc
    · next hc =>
      cases h
      exact .breaks hc

/-- What a step of an activity can be. -/
inductive State.Steps (s : State) (me : ActivityId) : State → Prop
  /-- The loop was asked to end. -/
  | cut {l : Loop} (ha : s.activity? me = some (.loop l true)) :
    Steps s me ((l.cancel s me).close me .cancelled)
  /-- The loop makes a step. -/
  | loop {l : Loop} {t : State} (ha : s.activity? me = some (.loop l false))
    (h : l.Steps s me t) : Steps s me t
  /-- The flush cycle of a call goes on. -/
  | goes {c c' : Cycle} {t : State} (ha : s.activity? me = some (.flush c))
    (h : c.step s me s.settings.retryOnce = .goes t c') : Steps s me (t.setActivity me (.flush c'))
  /-- The flush cycle of a call is over, and the call returns. -/
  | ends {c : Cycle} {o : Outcome} {t : State} (ha : s.activity? me = some (.flush c))
    (h : c.step s me s.settings.retryOnce = .ends t o) : Steps s me (t.close me (.flushed o))
  /-- The transport takes a call down. -/
  | breaks {c : Cycle} {t : State} (ha : s.activity? me = some (.flush c))
    (h : c.step s me s.settings.retryOnce = .breaks t) : Steps s me (t.close me .broken)
  /-- A shutdown makes a step. -/
  | shutdown {d : Shutdown} {t : State} (ha : s.activity? me = some (.shutdown d))
    (h : d.Steps s me t) : Steps s me t

/-- Every step of an activity is one of these. -/
theorem State.steps_of_step {s t : State} {me : ActivityId} (h : s.step? me = some t) :
    s.Steps me t := by
  unfold step? at h
  split at h
  · next ha =>
    cases h
    exact .cut ha
  · next ha => exact .loop ha (Loop.steps_of_step h)
  · next ha =>
    split at h
    · contradiction
    · next hc =>
      cases h
      exact .goes ha hc
    · next hc =>
      cases h
      exact .ends ha hc
    · next hc =>
      cases h
      exact .breaks ha hc
  · next ha => exact .shutdown ha (Shutdown.steps_of_step h)
  · contradiction
  · contradiction

end EventRelay.Publisher
