import EventRelay.Proofs.Publisher.History
import EventRelay.Proofs.Publisher.Line
import EventRelay.Proofs.Publisher.WakeUps
import Mathlib.Algebra.GroupWithZero.Nat

/-!
# What a burst of events sets off

Events that are offered in one go wake the loop once they fill a batch, and the loop ships batches
until less than one is left. A loop that was not waiting finds one notification, however many were
sent, and ships whole batches only. A loop that was waiting takes the first notification, and the
second one is stored: it wakes the loop again, and then the rest is shipped before it is due.
-/

namespace EventRelay.Publisher

/-- The collector accepts every batch at once. -/
def Transport.Accepts (t : Transport) : Prop := t.later = {} ∧ ∀ r ∈ t.coming, r = {}

/-- After one batch the next one is accepted as well. -/
theorem Transport.Accepts.next {t : Transport} (h : t.Accepts) :
    t.next.1 = {} ∧ t.next.2.Accepts := by
  unfold Transport.next
  split
  · exact ⟨h.1, h⟩
  · next r rest hc =>
    have all : ∀ x ∈ r :: rest, x = {} := hc ▸ h.2
    exact ⟨all r (List.mem_cons_self ..), h.1, fun x hx => all x (List.mem_cons_of_mem _ hx)⟩

/-- There is a way to a collector that accepts every batch at once. -/
def State.Accepts (s : State) : Prop := ∃ t, s.transport = some t ∧ t.Accepts

/-- No call is under way: every activity is the loop or has ended. -/
def State.Uncalled (s : State) : Prop :=
  ∀ i a, s.activity? i = some a → a.part = .loop ∨ ∃ c, a = .ended c

/-- An action that neither offers an event nor begins a call. -/
def Action.Calm : Action → Prop
  | .offer _ => False
  | .flush => False
  | .shutdown => False
  | _ => True

/-- How much time an action takes. -/
def Action.millis : Action → Nat
  | .elapse millis => millis
  | _ => 0

/-- How much time passes in a run. -/
def elapsed (actions : List Action) : Nat := (actions.map Action.millis).sum

/-- From one state to another, batches of `es` were taken off the queue, and all of them have been
delivered. -/
structure State.Ships (s t : State) (es : List Event) (batches : List (List Event)) : Prop where
  /-- The batches were taken one after the other. -/
  drained : drained t.history = drained s.history ++ batches
  /-- Each one was counted as delivered. -/
  delivered : tallies t.history = tallies s.history ++ batches.map fun x => ⟨x.length, true⟩
  /-- They are the front of the events, and the rest is queued. -/
  order : batches.flatten ++ t.queue = es

/-- What has become of the second notification of a burst. -/
inductive Surplus
  /-- There is none. -/
  | absent
  /-- It is stored. -/
  | kept
  /-- It has woken the loop. -/
  | taken
  deriving DecidableEq

namespace Surplus

/-- Whether the second notification is stored. -/
def stored : Surplus → Bool
  | .kept => true
  | _ => false

/-- Whether a loop that is not waiting finds a notification. -/
def pending (t : State) : Surplus → Bool
  | .absent => t.settings.batchSize.value ≤ t.queue.length
  | .kept => true
  | .taken => false

/-- What is queued when the loop has nothing to do. -/
def Leaves (t : State) : Surplus → Prop
  | .absent => True
  | .kept => ¬ t.HasBatch
  | .taken => t.queue = []

/-- What is queued when the loop is about to take a batch. -/
def Finds (t : State) : Surplus → Prop
  | .taken => ¬ t.HasBatch
  | _ => t.HasBatch

/-- What the batch is that the loop has taken. -/
def Carries (t : State) (batch : List Event) : Surplus → Prop
  | .taken => t.queue = []
  | _ => batch.length = t.settings.batchSize.value

/-- What the batches are that were taken so far. -/
def Sizes (t : State) (batches : List (List Event)) : Surplus → Prop
  | .taken => ∃ full rest, (∀ x ∈ full, x.length = t.settings.batchSize.value) ∧
      rest.length < t.settings.batchSize.value ∧
      ((batches = full ∧ t.queue = rest) ∨
        (rest ≠ [] ∧ batches = full ++ [rest] ∧ t.queue = []))
  | _ => ∀ x ∈ batches, x.length = t.settings.batchSize.value

end Surplus

namespace Loop

/-- The batch that the loop has taken and not counted. -/
def cargo : Loop → List (List Event)
  | .flushing _ (.attempting batch ..) => [batch.events]
  | _ => []

/-- The turn while the loop is the only one to ask for it. -/
def turn (me : ActivityId) : Loop → Turn
  | .flushing _ .admitted => { holder := some me }
  | .flushing _ (.attempting ..) => { holder := some me }
  | _ => {}

/-- The time of the next tick. -/
def due (t : State) : Loop → Nat
  | .created => t.now + t.settings.flushInterval
  | .resting tick => tick
  | .parked tick => tick
  | .draining tick => tick
  | .flushing tick _ => tick

/-- How much is left to do before the loop waits, the queue and the notifications apart. -/
def stretch (wake : Signal) : Loop → Nat
  | .created => 3
  | .resting _ => 2
  | .parked _ => 1 - wake.waiting.length
  | .draining _ => 5
  | .flushing _ .arriving => 4
  | .flushing _ .admitted => 3
  | .flushing .. => 7

end Loop

namespace State

/-- More steps than the loop can make before it waits. -/
def effort (t : State) (l : Loop) : Nat :=
  5 * t.queue.length + 6 * (t.wake.stored.toNat + t.wake.called.length) + l.stretch t.wake

/-- How the loop, the signal for full batches and the queue fit each other after a burst. -/
inductive Stands (t : State) (me : ActivityId) (g : Surplus) : Loop → Prop
  /-- The loop has not run yet. -/
  | created (wake : t.wake = { stored := g.pending t }) (leaves : g.Leaves t) :
    Stands t me g .created
  /-- The loop is about to wait. -/
  | resting {tick : Nat} (wake : t.wake = { stored := g.pending t }) (leaves : g.Leaves t) :
    Stands t me g (.resting tick)
  /-- The loop looks for a notification. -/
  | looks {tick : Nat} (wake : t.wake = { stored := g.pending t }) (leaves : g.Leaves t) :
    Stands t me g (.parked tick)
  /-- The loop waits. -/
  | waits {tick : Nat} (wake : t.wake = { waiting := [me] })
    (listens : me ∈ t.shutdownSignal.waiting) (short : ¬ t.HasBatch) (none : g ≠ .kept)
    (leaves : g.Leaves t) : Stands t me g (.parked tick)
  /-- The loop was notified while it waited. -/
  | called {tick : Nat} (wake : t.wake = { stored := g.stored, called := [me] })
    (full : t.HasBatch) (fresh : g ≠ .taken) : Stands t me g (.parked tick)
  /-- The loop is about to flush. -/
  | draining {tick : Nat} (wake : t.wake = { stored := g.stored }) (finds : g.Finds t) :
    Stands t me g (.draining tick)
  /-- The loop asks for its turn. -/
  | arriving {tick : Nat} (wake : t.wake = { stored := g.stored }) (finds : g.Finds t) :
    Stands t me g (.flushing tick .arriving)
  /-- The loop has the turn. -/
  | admitted {tick : Nat} (wake : t.wake = { stored := g.stored }) (finds : g.Finds t) :
    Stands t me g (.flushing tick .admitted)
  /-- The loop delivers a batch. -/
  | attempting {tick begun : Nat} {batch : Envelope} (wake : t.wake = { stored := g.stored })
    (carries : g.Carries t batch.events) :
    Stands t me g (.flushing tick (.attempting batch false begun {}))

/-- After the events `es` were offered the loop works alone. -/
structure Serves (s t : State) (me : ActivityId) (limit : Nat) (es : List Event) (g : Surplus)
    (l : Loop) (settled : List (List Event)) : Prop where
  stage : t.activity? me = some (.loop l false)
  others : ∀ i a, i ≠ me → t.activity? i = some a → ∃ c, a = .ended c
  stands : t.Stands me g l
  turn : t.turn = l.turn me
  due : limit ≤ l.due t
  on : t.enabled = true
  opened : t.closed = false
  up : t.shutdown = false
  running : t.phase = .running
  settings : t.settings = s.settings
  quiet : t.shutdownSignal.Quiet
  accepts : t.Accepts
  drained : drained t.history = drained s.history ++ (settled ++ l.cargo)
  delivered : tallies t.history = tallies s.history ++ settled.map fun x => ⟨x.length, true⟩
  order : (settled ++ l.cargo).flatten ++ t.queue = es
  sizes : g.Sizes t (settled ++ l.cargo)

variable {s t : State} {me : ActivityId} {limit : Nat} {es : List Event} {g : Surplus} {l : Loop}
  {settled : List (List Event)}

/-- What the loop finds before its tick and without a shutdown is a notification, or nothing. -/
private theorem find_branch {tick : Nat} (quiet : t.shutdownSignal.Quiet) (early : t.now < tick) :
    (Branch.order t.toss.1).find? (t.branchReady me tick) =
      if t.wake.readyFor me then some .wake else none := by
  have away : t.branchReady me tick .shutdown = false := quiet.not_ready
  have still : t.branchReady me tick .tick = false := decide_eq_false (Nat.not_le_of_lt early)
  have ready : t.branchReady me tick .wake = t.wake.readyFor me := rfl
  cases t.toss.1 <;> simp only [Branch.order, List.find?, away, still, ready] <;>
    cases t.wake.readyFor me <;> rfl

/-- The front of the queue as it is sent to the collector. -/
def parcel (t : State) : Envelope :=
  ⟨t.settings.source, ⟨t.now⟩, t.queue.take t.settings.batchSize.value⟩

/-- The state in which the front of the queue is on its way to the collector. -/
def dispatch (t : State) (me : ActivityId) (left : Transport) : State :=
  (({ t with transport := some left, queue := t.queue.drop t.settings.batchSize.value }).observe
    (.drained me t.parcel.events)).observe (.handed me t.now t.parcel false)

/-- The state in which the collector has accepted a batch. -/
def acknowledge (t : State) (me : ActivityId) (batch : Envelope) : State :=
  ((t.observe (.answered me t.now .success)).settleDelivered batch).release

/-- With the turn, a flush cycle hands the front of the queue to the collector. -/
theorem cycle_dispatches {tr : Transport} (me : ActivityId) (supplied : t.transport = some tr)
    (queued : t.queue ≠ []) (retry : Bool) : Cycle.step t me retry .admitted =
      .goes (t.dispatch me tr.next.2) (.attempting t.parcel false t.now tr.next.1) := by
  have here : (t.drain me).1.transport = some tr := supplied
  have next : (t.drain me).1.nextResponse =
      (tr.next.1, { (t.drain me).1 with transport := some tr.next.2 }) := by
    rw [nextResponse, here]
  simp only [Cycle.step, if_neg queued, here, hand, next]
  rfl

private theorem others_set (h : ∀ i a, i ≠ me → t.activity? i = some a → ∃ c, a = .ended c)
    (a' : Activity) (i : ActivityId) (a : Activity) (hi : i ≠ me)
    (ha : (t.activities.set me a')[i]? = some a) : ∃ c, a = .ended c := by
  rw [List.getElem?_set_ne (Ne.symm hi)] at ha
  exact h i a hi ha

namespace Serves

/-- The loop goes on without touching the queue. -/
private theorem move (h : Serves s t me limit es g l settled) {u : State} {l' : Loop} {g' : Surplus}
    (same : u = { t with
      wake := u.wake, shutdownSignal := u.shutdownSignal, turn := u.turn, tosses := u.tosses })
    (stands : (u.setLoop me l').Stands me g' l') (turn : u.turn = l'.turn me)
    (due : limit ≤ l'.due u) (quiet : u.shutdownSignal.Quiet) (empty : l.cargo = [])
    (empty' : l'.cargo = []) (sizes : g.Sizes t settled → g'.Sizes (u.setLoop me l') settled) :
    Serves s (u.setLoop me l') me limit es g' l' settled := by
  have activities : u.activities = t.activities := by rw [same]
  have history : u.history = t.history := by rw [same]
  have queue : u.queue = t.queue := by rw [same]
  have whole : settled ++ l'.cargo = settled ++ l.cargo := by rw [empty, empty']
  have none : settled ++ l.cargo = settled := by rw [empty, List.append_nil]
  refine {
    stage := getElem?_set_of_some (x := .loop l false) ?_ _
    others := fun i a hi ha => ?_
    stands := stands
    turn := turn
    due := due
    on := (congrArg State.enabled same).trans h.on
    opened := (congrArg State.closed same).trans h.opened
    up := (congrArg State.shutdown same).trans h.up
    running := (congrArg State.phase same).trans h.running
    settings := (congrArg State.settings same).trans h.settings
    quiet := quiet
    accepts := ?_
    drained := ?_
    delivered := ?_
    order := ?_
    sizes := ?_ }
  · rw [activities]
    exact h.stage
  · refine h.others i a hi ?_
    rw [setLoop, activity?, setActivity, List.getElem?_set_ne (Ne.symm hi), activities] at ha
    exact ha
  · obtain ⟨tr, ht, ha⟩ := h.accepts
    exact ⟨tr, (congrArg State.transport same).trans ht, ha⟩
  · change EventRelay.Publisher.drained u.history = _
    rw [history, whole]
    exact h.drained
  · change tallies u.history = _
    rw [history]
    exact h.delivered
  · change (settled ++ l'.cargo).flatten ++ u.queue = es
    rw [queue, whole]
    exact h.order
  · rw [whole, none]
    exact sizes (none ▸ h.sizes)

/-- The loop makes a step, and has less to do afterwards. -/
def Advances (s t : State) (me : ActivityId) (limit : Nat) (es : List Event) (g : Surplus)
    (l : Loop) : Prop :=
  ∃ t' g' l' settled', t.step? me = some t' ∧ t'.now = t.now ∧ t'.effort l' < t.effort l ∧
    (g' = .absent ↔ g = .absent) ∧ Serves s t' me limit es g' l' settled'

/-- A notification makes the loop drain the queue. -/
private theorem wakes {tick : Nat} (h : Serves s t me limit es g (.parked tick) settled)
    (early : t.now < limit) (g' : Surplus)
    (ready : t.wake.readyFor me = true) (wake : t.wake.take me = { stored := g'.stored })
    (finds : g'.Finds t) (sizes : g.Sizes t settled → g'.Sizes t settled)
    (less : g'.stored.toNat < t.wake.stored.toNat + t.wake.called.length)
    (origin : g' = .absent ↔ g = .absent) :
    Advances s t me limit es g (.parked tick) := by
  obtain ⟨tosses, same⟩ : ∃ tosses, t.toss.2 = { t with tosses } := by
    unfold toss
    split
    · exact ⟨_, rfl⟩
    · exact ⟨_, rfl⟩
  have due : limit ≤ tick := h.due
  have found : (Branch.order t.toss.1).find? (t.branchReady me tick) = some .wake := by
    rw [find_branch h.quiet (Nat.lt_of_lt_of_le early due), ready]
    rfl
  have step : t.step? me = some ((({ t with tosses }).takeBranch me .wake).setLoop me
      (.draining tick)) := by
    rw [step?, h.stage]
    simp only [Loop.step?, found, same]
  refine ⟨_, g', .draining tick, settled, step, rfl, ?_, origin,
    h.move rfl (.draining wake finds) h.turn h.due h.quiet.leave rfl rfl sizes⟩
  have hw : (t.wake.take me).stored = g'.stored ∧ (t.wake.take me).called = [] := by
    rw [wake]
    exact ⟨rfl, rfl⟩
  change 5 * t.queue.length + 6 * ((t.wake.take me).stored.toNat + (t.wake.take me).called.length)
    + 5 < t.effort _
  rw [hw.1, hw.2, effort, List.length_nil]
  omega

/-- A loop that is notified wakes up. -/
private theorem looks_up {tick : Nat} (h : Serves s t me limit es g (.parked tick) settled)
    (early : t.now < limit) (wake : t.wake = { stored := true }) (hp : g.pending t = true)
    (leaves : g.Leaves t) : Advances s t me limit es g (.parked tick) := by
  have ready : t.wake.readyFor me = true := by
    rw [wake]
    rfl
  have taken : t.wake.take me = { stored := false } := by
    rw [wake]
    rfl
  have left : t.wake.stored.toNat + t.wake.called.length = 1 := by
    rw [wake]
    rfl
  cases g with
  | absent =>
    have full : t.HasBatch := by simpa [HasBatch, Surplus.pending] using hp
    exact h.wakes early .absent ready taken full id (left ▸ Nat.zero_lt_one)
      Iff.rfl
  | kept =>
    refine h.wakes early .taken ready taken leaves (fun full => ?_)
      (left ▸ Nat.zero_lt_one) (by decide)
    exact ⟨settled, t.queue, full, Nat.lt_of_not_le leaves, .inl ⟨rfl, rfl⟩⟩
  | taken => contradiction

/-- A loop that is not notified joins those that wait. -/
private theorem looks_in_vain {tick : Nat} (h : Serves s t me limit es g (.parked tick) settled)
    (early : t.now < limit) (wake : t.wake = { stored := false }) (hp : g.pending t = false)
    (leaves : g.Leaves t) : Advances s t me limit es g (.parked tick) := by
  have due : limit ≤ tick := h.due
  have unready : t.wake.readyFor me = false := by
    rw [wake]
    rfl
  have found : (Branch.order t.toss.1).find? (t.branchReady me tick) = none := by
    rw [find_branch h.quiet (Nat.lt_of_lt_of_le early due), unready]
    rfl
  have away : t.wake.waiting.contains me = false := by
    rw [wake]
    rfl
  have step : t.step? me = some ((t.joinSignals me).setLoop me (.parked tick)) := by
    have stays : (t.joinSignals me).setLoop me (.parked tick) = t.joinSignals me := by
      obtain ⟨hi, he⟩ := List.getElem?_eq_some_iff.mp h.stage
      simp only [setLoop, setActivity, ← he]
      change { t.joinSignals me with activities := t.activities.set me t.activities[me] } = _
      rw [List.set_getElem_self]
      rfl
    rw [step?, h.stage, stays]
    simp only [Loop.step?, found, away, Bool.false_and, Bool.false_eq_true, if_false]
  have joined : t.wake.join me = { waiting := [me] } := by
    rw [wake]
    rfl
  have listens : me ∈ (t.shutdownSignal.join me).waiting := by
    unfold Signal.join
    split
    · next there =>
      rw [h.quiet.2] at there
      simpa using there
    · exact List.mem_append_right _ (List.mem_singleton_self me)
  have short : ¬ t.HasBatch := by
    intro full
    cases g with
    | absent => exact of_decide_eq_false hp full
    | kept => contradiction
    | taken =>
      rw [HasBatch, leaves] at full
      exact Nat.not_lt_of_le full t.settings.batchSize.pos
  have spent : g ≠ .kept := by
    rintro rfl
    contradiction
  refine ⟨_, g, .parked tick, settled, step, rfl, ?_, Iff.rfl,
    h.move rfl (.waits joined listens short spent leaves) h.turn h.due h.quiet.join rfl rfl id⟩
  change 5 * t.queue.length + 6 * ((t.wake.join me).stored.toNat + (t.wake.join me).called.length)
    + (1 - (t.wake.join me).waiting.length) < t.effort _
  rw [joined, effort, wake]
  exact Nat.lt_succ_self _

/-- A loop that finds a full batch, or is notified once more, drains the queue; otherwise it joins
the waiters. -/
private theorem looks {tick : Nat} (h : Serves s t me limit es g (.parked tick) settled)
    (early : t.now < limit) (wake : t.wake = { stored := g.pending t }) (leaves : g.Leaves t) :
    Advances s t me limit es g (.parked tick) := by
  cases hp : g.pending t with
  | true =>
    rw [hp] at wake
    exact h.looks_up early wake hp leaves
  | false =>
    rw [hp] at wake
    exact h.looks_in_vain early wake hp leaves

/-- A loop that has the turn hands a batch over. -/
private theorem ships {tick : Nat} (h : Serves s t me limit es g (.flushing tick .admitted) settled)
    (queued : t.queue ≠ []) (wake : t.wake = { stored := g.stored }) (finds : g.Finds t) :
    Advances s t me limit es g (.flushing tick .admitted) := by
  obtain ⟨tr, supplied, accepting⟩ := h.accepts
  have cycle := cycle_dispatches me supplied queued t.settings.retryOnce
  rw [accepting.next.1] at cycle
  have step : t.step? me = some ((t.dispatch me tr.next.2).setLoop me
      (.flushing tick (.attempting t.parcel false t.now {}))) := by
    rw [step?, h.stage]
    simp only [Loop.step?, cycle]
  have before : settled ++ Loop.cargo (.flushing tick .admitted) = settled := List.append_nil _
  refine ⟨_, g, _, settled, step, rfl, ?_, Iff.rfl, {
    stage := getElem?_set_of_some h.stage _
    others := others_set h.others _
    stands := .attempting wake ?_
    turn := h.turn
    due := h.due
    on := ?_
    opened := h.opened
    up := h.up
    running := h.running
    settings := h.settings
    quiet := h.quiet
    accepts := ⟨tr.next.2, rfl, accepting.next.2⟩
    drained := ?_
    delivered := ?_
    order := ?_
    sizes := ?_ }⟩
  · have some : 0 < t.queue.length := List.length_pos_of_ne_nil queued
    have size : 0 < t.settings.batchSize.value := t.settings.batchSize.pos
    change 5 * (t.queue.drop t.settings.batchSize.value).length +
      6 * (t.wake.stored.toNat + t.wake.called.length) + 7 <
        5 * t.queue.length + 6 * (t.wake.stored.toNat + t.wake.called.length) + 3
    rw [List.length_drop]
    omega
  · cases g with
    | taken => exact List.drop_of_length_le (Nat.le_of_not_le finds)
    | _ => exact List.length_take_of_le finds
  · exact Bool.and_eq_true_iff.mpr ⟨(Bool.and_eq_true_iff.mp h.on).1, rfl⟩
  · have read : EventRelay.Publisher.drained (t.dispatch me tr.next.2).history =
        EventRelay.Publisher.drained t.history ++ [t.parcel.events] :=
      (reading_skip rfl).trans (reading_find rfl)
    have old := h.drained
    rw [before] at old
    change EventRelay.Publisher.drained (t.dispatch me tr.next.2).history = _
    rw [read, old, List.append_assoc]
    rfl
  · exact ((reading_skip rfl).trans (reading_skip rfl)).trans h.delivered
  · have old := h.order
    rw [before] at old
    change (settled ++ [t.parcel.events]).flatten ++ t.queue.drop _ = es
    rw [List.flatten_append, List.flatten_singleton, List.append_assoc, parcel,
      List.take_append_drop]
    exact old
  · have old := h.sizes
    rw [before] at old
    cases g with
    | taken =>
      obtain ⟨full, rest, whole, short, ⟨rfl, rfl⟩ | ⟨_, _, hq⟩⟩ := old
      · refine ⟨settled, t.queue, whole, short, .inr ⟨queued, ?_, ?_⟩⟩
        · exact congrArg (fun x => settled ++ [x]) (List.take_of_length_le (Nat.le_of_lt short))
        · exact List.drop_of_length_le (Nat.le_of_lt short)
      · exact absurd hq queued
    | _ =>
      intro x hx
      rcases List.mem_append.mp hx with hx | hx
      · exact old x hx
      · rw [List.mem_singleton.mp hx]
        exact List.length_take_of_le finds

/-- A loop that has the turn takes a batch, or finds nothing to do. -/
private theorem takes {tick : Nat} (h : Serves s t me limit es g (.flushing tick .admitted) settled)
    (wake : t.wake = { stored := g.stored }) (finds : g.Finds t) :
    Advances s t me limit es g (.flushing tick .admitted) := by
  by_cases empty : t.queue = []
  · have step : t.step? me = some (t.release.setLoop me (.resting tick)) := by
      have short : t.queue.length < t.settings.batchSize.value := by
        rw [empty]
        exact t.settings.batchSize.pos
      rw [step?, h.stage]
      simp only [Loop.step?, Cycle.step, if_pos empty]
      exact if_pos short
    have spent : g = .taken := by
      cases g with
      | taken => rfl
      | _ =>
        have full : t.settings.batchSize.value ≤ t.queue.length := finds
        rw [empty] at full
        exact absurd t.settings.batchSize.pos (Nat.not_lt_of_le full)
    subst spent
    have free : t.turn.release = {} := by
      rw [h.turn]
      rfl
    exact ⟨_, .taken, .resting tick, settled, step, rfl, Nat.add_lt_add_left (Nat.lt_succ_self 2) _,
      Iff.rfl, h.move rfl (.resting wake empty) free h.due h.quiet rfl rfl id⟩
  · exact h.ships empty wake finds

/-- The loop goes on after the collector has accepted a batch. -/
private theorem acknowledged {tick begun : Nat} {batch : Envelope} {l' : Loop}
    (h : Serves s t me limit es g (.flushing tick (.attempting batch false begun {})) settled)
    (after : l' = .resting tick ∨ l' = .draining tick)
    (stands : ((t.acknowledge me batch).setLoop me l').Stands me g l') :
    Serves s ((t.acknowledge me batch).setLoop me l') me limit es g l'
      (settled ++ [batch.events]) := by
  have free : (t.acknowledge me batch).turn = {} := by
    change t.turn.release = {}
    rw [h.turn]
    rfl
  have cargo : settled ++ [batch.events] ++ l'.cargo = settled ++ [batch.events] := by
    rcases after with rfl | rfl <;> exact List.append_nil _
  refine {
    stage := getElem?_set_of_some h.stage _
    others := others_set h.others _
    stands := stands
    turn := ?_
    due := ?_
    on := h.on
    opened := h.opened
    up := h.up
    running := h.running
    settings := h.settings
    quiet := h.quiet
    accepts := h.accepts
    drained := ?_
    delivered := ?_
    order := ?_
    sizes := ?_ }
  · rcases after with rfl | rfl <;> exact free
  · rcases after with rfl | rfl <;> exact h.due
  · have read : EventRelay.Publisher.drained (t.acknowledge me batch).history =
        EventRelay.Publisher.drained t.history := (reading_skip rfl).trans (reading_skip rfl)
    change EventRelay.Publisher.drained (t.acknowledge me batch).history = _
    rw [read, cargo]
    exact h.drained
  · have answered : tallies (.answered me t.now .success :: t.history) = tallies t.history :=
      reading_skip rfl
    have read : tallies (t.acknowledge me batch).history =
        tallies (.answered me t.now .success :: t.history) ++ [⟨batch.events.length, true⟩] :=
      reading_find rfl
    change tallies (t.acknowledge me batch).history = _
    rw [read, answered, h.delivered, List.map_append, List.append_assoc]
    rfl
  · rw [cargo]
    exact h.order
  · rw [cargo]
    exact h.sizes

/-- A batch is delivered, and the loop looks whether there is another one. -/
private theorem settles {tick begun : Nat} {batch : Envelope}
    (h : Serves s t me limit es g (.flushing tick (.attempting batch false begun {})) settled)
    (wake : t.wake = { stored := g.stored }) (carries : g.Carries t batch.events) :
    Advances s t me limit es g (.flushing tick (.attempting batch false begun {})) := by
  have answer : Response.resultAfter {} (t.now - begun) t.settings.deliveryTimeout =
      some .success := if_pos ⟨Nat.zero_le _, Ending.noConfusion⟩
  have cycle : Cycle.step t me t.settings.retryOnce (.attempting batch false begun {}) =
      .ends (t.acknowledge me batch) (.delivered batch.size) := by
    simp only [Cycle.step, answer]
    rfl
  by_cases full : t.HasBatch
  · have step : t.step? me = some ((t.acknowledge me batch).setLoop me (.draining tick)) := by
      rw [step?, h.stage]
      simp only [Loop.step?, cycle]
      exact if_neg (Nat.not_lt_of_le full)
    have finds : g.Finds t := by
      cases g with
      | taken =>
        rw [HasBatch, carries] at full
        exact absurd t.settings.batchSize.pos (Nat.not_lt_of_le full)
      | _ => exact full
    exact ⟨_, g, _, _, step, rfl, Nat.add_lt_add_left (by decide : 5 < 7) _,
      Iff.rfl, h.acknowledged (.inr rfl) (.draining wake finds)⟩
  · have step : t.step? me = some ((t.acknowledge me batch).setLoop me (.resting tick)) := by
      rw [step?, h.stage]
      simp only [Loop.step?, cycle]
      exact if_pos (Nat.lt_of_not_le full)
    have leaves : g.Leaves t := by
      cases g with
      | absent => trivial
      | kept => exact full
      | taken => exact carries
    have pending : g.pending t = g.stored := by
      cases g with
      | absent => exact decide_eq_false full
      | _ => rfl
    exact ⟨_, g, _, _, step, rfl, Nat.add_lt_add_left (by decide : 2 < 7) _,
      Iff.rfl, h.acknowledged (.inl rfl) (.resting (wake.trans (by rw [← pending]; rfl)) leaves)⟩

/-- Before its tick the loop either waits, having done what was due, or makes a step. -/
theorem step (h : Serves s t me limit es g l settled) (early : t.now < limit) :
    (t.step? me = none ∧ ¬ t.HasBatch ∧ g ≠ .kept ∧ g.Leaves t ∧ l.cargo = []) ∨
      Advances s t me limit es g l := by
  cases h.stands with
  | created wake leaves =>
    have step : t.step? me = some (t.setLoop me (.resting (t.now + t.settings.flushInterval))) := by
      rw [step?, h.stage]
      rfl
    exact .inr ⟨_, g, _, settled, step, rfl, Nat.add_lt_add_left (Nat.lt_succ_self 2) _,
      Iff.rfl, h.move rfl (.resting wake leaves) h.turn h.due h.quiet rfl rfl id⟩
  | @resting tick wake leaves =>
    have step : t.step? me = some (t.setLoop me (.parked tick)) := by
      rw [step?, h.stage]
      simp only [Loop.step?, h.up, Bool.false_eq_true, if_false]
    have less : Loop.stretch t.wake (.parked tick) < 2 := Nat.lt_succ_of_le (Nat.sub_le _ _)
    exact .inr ⟨_, g, _, settled, step, rfl, Nat.add_lt_add_left less _,
      Iff.rfl, h.move rfl (.looks wake leaves) h.turn h.due h.quiet rfl rfl id⟩
  | looks wake leaves => exact .inr (h.looks early wake leaves)
  | @waits tick wake listens short none leaves =>
    have due : limit ≤ tick := h.due
    have unready : t.wake.readyFor me = false := by
      rw [wake]
      simp [Signal.readyFor]
    have found : (Branch.order t.toss.1).find? (t.branchReady me tick) = Option.none := by
      rw [find_branch h.quiet (Nat.lt_of_lt_of_le early due), unready]
      rfl
    have both : (t.wake.waiting.contains me && t.shutdownSignal.waiting.contains me) = true := by
      rw [wake]
      simpa using listens
    refine .inl ⟨?_, short, none, leaves, rfl⟩
    rw [step?, h.stage]
    simp only [Loop.step?, found, both, if_true]
  | @called tick wake full fresh =>
    have ready : t.wake.readyFor me = true := by
      rw [wake]
      simp [Signal.readyFor]
    have taken : t.wake.take me = { stored := g.stored } := by
      rw [wake]
      simp [Signal.take]
    have finds : g.Finds t := by
      cases g with
      | taken => exact absurd rfl fresh
      | _ => exact full
    refine .inr (h.wakes early g ready taken finds id ?_ Iff.rfl)
    rw [wake]
    exact Nat.lt_succ_self _
  | @draining tick wake finds =>
    have step : t.step? me = some (t.setLoop me (.flushing tick .arriving)) := by
      rw [step?, h.stage]
      simp only [Loop.step?, h.up, Bool.false_eq_true, if_false]
    exact .inr ⟨_, g, _, settled, step, rfl, Nat.add_lt_add_left (Nat.lt_succ_self 4) _,
      Iff.rfl, h.move rfl (.arriving wake finds) h.turn h.due h.quiet rfl rfl id⟩
  | @arriving tick wake finds =>
    have free : t.turn = {} := h.turn
    have step : t.step? me = some ({ t with turn := t.turn.request me }.setLoop me
        (.flushing tick .admitted)) := by
      rw [step?, h.stage]
      simp only [Loop.step?, Cycle.step, free, if_true]
    have mine : t.turn.request me = { holder := some me } := by
      rw [free]
      rfl
    exact .inr ⟨_, g, _, settled, step, rfl, Nat.add_lt_add_left (Nat.lt_succ_self 3) _,
      Iff.rfl, h.move rfl (.admitted wake finds) mine h.due h.quiet rfl rfl id⟩
  | admitted wake finds => exact .inr (h.takes wake finds)
  | attempting wake carries => exact .inr (h.settles wake carries)

end Serves

end State

end EventRelay.Publisher
