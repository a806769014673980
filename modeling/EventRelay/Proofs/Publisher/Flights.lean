import EventRelay.Proofs.Publisher.Finale

/-!
# A loop that is asked to end

A loop that is asked to end begins no flush cycle: whatever wakes it, it looks first whether it has
to end. A cycle that it is in goes on to its end, with the second attempt if there is one, or is cut
off. Either way its batch is counted once, and a batch is taken only by a cycle that had none when
the shutdown began, before any time has passed.
-/

namespace EventRelay.Publisher

/-- How many steps a flush cycle may still make. -/
def Cycle.drive : Cycle → Nat
  | .arriving => 6
  | .waiting => 5
  | .admitted => 4
  | .attempting _ false _ _ => 3
  | .pausing .. => 2
  | .attempting _ true _ _ => 1

/-- How many steps a loop that is asked to end may still make. -/
def Loop.drive : Loop → Nat
  | .resting _ => 2
  | .draining _ => 3
  | .created => 3
  | .parked _ => 4
  | .flushing _ c => c.drive + 3

theorem Cycle.drive_pos (c : Cycle) : 0 < c.drive := by
  cases c with
  | attempting batch second begun r => cases second <;> exact Nat.zero_lt_succ _
  | _ => exact Nat.zero_lt_succ _

theorem Loop.drive_pos (l : Loop) : 0 < l.drive := by
  cases l <;> exact Nat.zero_lt_succ _

/-- How many steps an activity may still make, if it is a loop that is asked to end. -/
def Activity.drive : Activity → Nat
  | .loop _ true => 1
  | .loop l false => l.drive
  | _ => 0

namespace State

variable {s t u : State} {me i : ActivityId}

/-- Until when a shutdown that begins now waits for the loop. -/
def patience (s : State) : Nat := s.now + s.settings.shutdownTimeout

theorem Unmoved.refl (s : State) : s.Unmoved s := ⟨rfl, rfl, rfl, rfl, rfl, rfl, rfl, rfl⟩

theorem Unmoved.trans (h : s.Unmoved t) (h' : t.Unmoved u) : s.Unmoved u where
  settings := h'.settings.trans h.settings
  transport := h'.transport.trans h.transport
  queue := h'.queue.trans h.queue
  now := h'.now.trans h.now
  phase := h'.phase.trans h.phase
  closed := h'.closed.trans h.closed
  shutdown := h'.shutdown.trans h.shutdown
  told := h'.told.trans h.told

/-- Another stage of an activity moves nothing. -/
theorem Unmoved.put (h : s.Unmoved t) (i : ActivityId) (a : Activity) :
    s.Unmoved (t.setActivity i a) :=
  ⟨h.settings, h.transport, h.queue, h.now, h.phase, h.closed, h.shutdown, h.told⟩

/-- The signals that wake the loop move nothing. -/
theorem unmoved_takeBranch (s : State) (me : ActivityId) (b : Branch) :
    s.Unmoved (s.toss.2.takeBranch me b) ∧
      (s.toss.2.takeBranch me b).activities = s.activities := by
  unfold toss
  split <;> cases b <;> exact ⟨⟨rfl, rfl, rfl, rfl, rfl, rfl, rfl, rfl⟩, rfl⟩

end State

namespace Loop

variable {s t : State} {me : ActivityId}

/-- The loop is in no flush cycle, and finds the signal of a shutdown if it waits. -/
structure Heeds (s : State) (me : ActivityId) (l : Loop) : Prop where
  /-- It is in no flush cycle. -/
  calm : ∀ tick c, l ≠ .flushing tick c
  /-- It finds the signal. -/
  ready : ∀ tick, l = .parked tick → s.shutdownSignal.readyFor me = true

/-- Whoever finds the signal of a shutdown takes some branch. -/
private theorem Heeds.found {tick : Nat} (h : Heeds s me (.parked tick)) :
    (Branch.order s.toss.1).find? (s.branchReady me tick) ≠ none := by
  intro none
  have unready : ¬ s.branchReady me tick .shutdown = true :=
    List.find?_eq_none.mp none .shutdown (by cases s.toss.1 <;> decide)
  exact unready (h.ready tick rfl)

/-- A loop that is asked to end goes on at once. -/
theorem Heeds.exists_step {l : Loop} (h : Heeds s me l) : ∃ t, l.step? s me = some t := by
  cases l with
  | created => exact ⟨_, rfl⟩
  | resting tick =>
    rw [step?]
    split <;> exact ⟨_, rfl⟩
  | parked tick =>
    have found := h.found
    simp only [step?]
    split
    · exact ⟨_, rfl⟩
    · exact ⟨_, rfl⟩
    · exact ⟨_, rfl⟩
    · next none => exact absurd none found
  | draining tick =>
    rw [step?]
    split <;> exact ⟨_, rfl⟩
  | flushing tick c => exact absurd rfl (h.calm tick c)

/-- A loop that is asked to end and is in no flush cycle begins none, and comes closer to its
end. -/
theorem Heeds.step {l : Loop} (h : Heeds s me l) (shut : s.shutdown = true)
    (step : l.Steps s me t) :
    s.Unmoved t ∧ ∃ a, t.activities = s.activities.set me a ∧ (a = .ended .exited ∨
      ∃ l', a = .loop l' false ∧ l'.drive < l.drive ∧ ∀ t, Heeds t me l') := by
  have rests {u : State} (unmoved : s.Unmoved u) (activities : u.activities = s.activities)
      {l' : Loop} (less : l'.drive < l.drive) (calm : ∀ tick c, l' ≠ .flushing tick c)
      (up : ∀ tick, l' ≠ .parked tick) :
      s.Unmoved (u.setLoop me l') ∧ ∃ a, (u.setLoop me l').activities = s.activities.set me a ∧
        (a = .ended .exited ∨
          ∃ l', a = .loop l' false ∧ l'.drive < l.drive ∧ ∀ t, Heeds t me l') := by
    refine ⟨unmoved.put me _, .loop l' false, ?_, .inr ⟨l', rfl, less, fun t => ⟨calm, ?_⟩⟩⟩
    · rw [← activities]
      rfl
    · exact fun tick he => absurd he (up tick)
  have exits {u : State} (unmoved : s.Unmoved u) (activities : u.activities = s.activities) :
      s.Unmoved (u.exitLoop me) ∧ ∃ a, (u.exitLoop me).activities = s.activities.set me a ∧
        (a = .ended .exited ∨
          ∃ l', a = .loop l' false ∧ l'.drive < l.drive ∧ ∀ t, Heeds t me l') := by
    refine ⟨(unmoved.trans (u.unmoved_report rfl)).put me _, .ended .exited, ?_, .inl rfl⟩
    rw [← activities]
    rfl
  cases step with
  | create =>
    exact rests (.refl s) rfl (Nat.lt_succ_self 2) (fun _ _ => Loop.noConfusion)
      fun _ => Loop.noConfusion
  | exit shut => exact exits (.refl s) rfl
  | park up => cases shut.symm.trans up
  | leave ready =>
    obtain ⟨unmoved, activities⟩ := s.unmoved_takeBranch me .shutdown
    exact exits unmoved activities
  | wake ready =>
    obtain ⟨unmoved, activities⟩ := s.unmoved_takeBranch me .wake
    exact rests unmoved activities (Nat.lt_succ_self 3) (fun _ _ => Loop.noConfusion)
      fun _ => Loop.noConfusion
  | tick ready =>
    obtain ⟨unmoved, activities⟩ := s.unmoved_takeBranch me .tick
    exact rests unmoved activities (Nat.lt_succ_self 3) (fun _ _ => Loop.noConfusion)
      fun _ => Loop.noConfusion
  | join ready => exact absurd ready h.found
  | rest shut =>
    exact rests (.refl s) rfl (Nat.lt_succ_self 2) (fun _ _ => Loop.noConfusion)
      fun _ => Loop.noConfusion
  | flush up => cases shut.symm.trans up
  | goes => exact absurd rfl (h.calm _ _)
  | done => exact absurd rfl (h.calm _ _)
  | more => exact absurd rfl (h.calm _ _)
  | breaks => exact absurd rfl (h.calm _ _)

end Loop

/-- What has happened since `b` to the queue and to batches, the shutdown `me` apart; `held` is what
was counted. -/
structure Record (b : State) (me : ActivityId) (held : List Settlement) (t : State) : Prop where
  /-- The settings are the same. -/
  settings : t.settings = b.settings
  /-- There is a way to the collector, and no answer to come is a breakdown. -/
  supplied : ∃ tr, t.transport = some tr ∧ tr.Steady
  /-- Nothing was queued. -/
  queue : t.queue.length ≤ b.queue.length
  /-- A batch was taken only at once, by whoever was in a flush cycle and had none. -/
  handed : ∃ more, handings t.history = handings b.history ++ more ∧ ∀ h ∈ more, h.actor ≠ me ∧
    (h.second = false → h.time = b.now ∧
      ∃ a c, b.activity? h.actor = some a ∧ a.cycle? = some c ∧ c.batch? = none)
  /-- What was counted. -/
  settled : settlements t.history = settlements b.history ++ held

/-- The batch that somebody carried in `b` is counted, and nobody carries one. -/
structure Landed (b : State) (me : ActivityId) (held : List Settlement) (t : State) : Prop where
  /-- At most one batch was counted. -/
  few : held.length ≤ 1
  /-- A batch that was carried is counted, as dropped if it was cut off, which happens at the limit
  of the shutdown. -/
  counted : ∀ i batch, b.Carries i batch → ∃ x, held = [x] ∧ x.tally.events = batch.size ∧
    (x.cut = true → x.tally.delivered = false ∧ t.now = b.patience)
  /-- If nobody was in a flush cycle, nothing has happened. -/
  still : (∀ i a, i ≠ me → b.activity? i = some a → a.cycle? = none) → b.Unmoved t

/-- The loop is in a flush cycle that it had begun in `b`. -/
structure Flying (b : State) (me loop : ActivityId) (t : State) (c : Cycle) : Prop where
  /-- The answer to its attempt is not a breakdown. -/
  steady : ∀ batch second begun r, c = .attempting batch second begun r → r.ending ≠ .breakdown
  /-- It carries what was carried. -/
  keeps : ∀ i batch, b.Carries i batch → c.batch? = some batch
  /-- Without a batch no time has passed. -/
  fresh : c.batch? = none → t.now = b.now ∧
    ∃ a c, b.activity? loop = some a ∧ a.cycle? = some c ∧ c.batch? = none
  /-- Somebody was in a flush cycle. -/
  busy : ∃ i a, i ≠ me ∧ b.activity? i = some a ∧ a.cycle? ≠ none

section record

variable {b t u : State} {me loop : ActivityId} {held : List Settlement} {c c' : Cycle}
  {retry : Bool}

/-- What moves nothing keeps the record. -/
theorem Record.unmoved (h : Record b me held t) (unmoved : t.Unmoved u) : Record b me held u where
  settings := unmoved.settings.trans h.settings
  supplied := by
    rw [unmoved.transport]
    exact h.supplied
  queue := by
    rw [unmoved.queue]
    exact h.queue
  handed := by
    have same : handings u.history = handings t.history :=
      unmoved.reading fun _ => handing_of_delivery
    rw [same]
    exact h.handed
  settled := (unmoved.reading fun _ => settlement_of_delivery).trans h.settled

theorem Landed.unmoved (h : Landed b me held t) (unmoved : t.Unmoved u) : Landed b me held u where
  few := h.few
  counted := by
    rw [unmoved.now]
    exact h.counted
  still := fun idle => (h.still idle).trans unmoved

theorem Flying.unmoved (h : Flying b me loop t c) (unmoved : t.Unmoved u) :
    Flying b me loop u c where
  steady := h.steady
  keeps := h.keeps
  fresh := by
    rw [unmoved.now]
    exact h.fresh
  busy := h.busy

/-- A flush cycle that has no batch carries none. -/
private theorem Flying.empty (h : Flying b me loop t c) (none : c.batch? = none)
    {i : ActivityId} {batch : Envelope} : ¬ b.Carries i batch := by
  intro carries
  cases none.symm.trans (h.keeps i batch carries)

/-- Somebody was in a flush cycle. -/
theorem Flying.not_idle (h : Flying b me loop t c) :
    ¬ ∀ i a, i ≠ me → b.activity? i = some a → a.cycle? = none := by
  intro idle
  obtain ⟨i, a, hi, ha, busy⟩ := h.busy
  exact busy (idle i a hi ha)

/-- A flush cycle ends without a batch. -/
private theorem Flying.land_empty (h : Flying b me loop t c) (none : c.batch? = none) :
    Landed b me [] u where
  few := Nat.zero_le 1
  counted := fun _ _ carries => absurd carries (h.empty none)
  still := fun idle => absurd idle h.not_idle

/-- The batch of a flush cycle is counted. -/
private theorem Flying.land (h : Flying b me loop t c) {batch : Envelope}
    (mine : c.batch? = some batch) (x : Settlement) (size : x.tally.events = batch.size)
    (cut : x.cut = true → x.tally.delivered = false ∧ u.now = b.patience) :
    Landed b me [x] u where
  few := Nat.le_refl 1
  counted := by
    intro i batch' carries
    obtain rfl := Option.some.inj (mine.symm.trans (h.keeps i batch' carries))
    exact ⟨x, rfl, size, cut⟩
  still := fun idle => absurd idle h.not_idle

/-- The record after a step of a flush cycle. -/
private theorem Record.step (h : Record b me [] t) (apart : t.Apart u)
    (supplied : ∃ tr, u.transport = some tr ∧ tr.Steady) (more : List Handing)
    (handed : handings u.history = handings t.history ++ more)
    (lawful : ∀ x ∈ more, x.actor ≠ me ∧ (x.second = false → x.time = b.now ∧
      ∃ a c, b.activity? x.actor = some a ∧ a.cycle? = some c ∧ c.batch? = none))
    (settled : settlements u.history = settlements t.history ++ held) : Record b me held u where
  settings := (congrArg Watch.settings apart.watch).trans h.settings
  supplied := supplied
  queue := Nat.le_trans apart.queue h.queue
  handed := by
    obtain ⟨before, told, known⟩ := h.handed
    refine ⟨before ++ more, by rw [handed, told, List.append_assoc], fun x hx => ?_⟩
    rcases List.mem_append.mp hx with hx | hx
    · exact known x hx
    · exact lawful x hx
  settled := by rw [settled, h.settled, List.append_nil]

/-- The record after a step of a flush cycle that hands nothing over. -/
private theorem Record.step_plain (h : Record b me [] t) (apart : t.Apart u)
    (supplied : ∃ tr, u.transport = some tr ∧ tr.Steady)
    (handed : handings u.history = handings t.history)
    (settled : settlements u.history = settlements t.history ++ held) : Record b me held u :=
  h.step apart supplied [] (handed.trans (List.append_nil _).symm) (fun _ hx => by contradiction)
    settled

/-- A flush cycle goes on without a batch. -/
private theorem Flying.approach (h : Flying b me loop t c) (before : c.batch? = none)
    (now : u.now = t.now)
    (after : ∀ batch second begun r, c' ≠ .attempting batch second begun r) :
    Flying b me loop u c' where
  steady := fun _ _ _ _ he => absurd he (after _ _ _ _)
  keeps := fun _ _ carries => absurd carries (h.empty before)
  fresh := fun _ => now ▸ h.fresh before
  busy := h.busy

/-- A flush cycle hands a batch over: the one that was carried, if there was one. -/
private theorem Flying.attempt (h : Flying b me loop t c) {batch : Envelope} {second : Bool}
    {begun : Nat} {r : Response} (handed : c' = .attempting batch second begun r)
    (answer : r.ending ≠ .breakdown) (same : ∀ i batch', b.Carries i batch' → batch = batch') :
    Flying b me loop u c' := by
  subst handed
  refine ⟨fun _ _ _ _ he => ?_, fun i batch' carries => ?_, fun none => by contradiction, h.busy⟩
  · cases he
    exact answer
  · rw [← same i batch' carries]
    rfl

/-- A flush cycle of the loop goes on, and takes a batch only if it had none in `b`. -/
theorem Flying.goes (h : Flying b me loop t c) (record : Record b me [] t) (other : loop ≠ me)
    (free : c = .arriving → t.turn.holder = none) (hc : c.step t loop retry = .goes u c') :
    Record b me [] u ∧ Flying b me loop u c' ∧ c'.drive < c.drive := by
  have apart : t.Apart u := Cycle.apart_of_step hc
  have now : u.now = t.now := (Cycle.leaves_of_step hc : t.Leaves loop u).now
  obtain ⟨tr, supplied, steady⟩ := record.supplied
  have plain (transport : u.transport = t.transport)
      (told : handings u.history = handings t.history)
      (settled : settlements u.history = settlements t.history) : Record b me [] u :=
    record.step_plain apart ⟨tr, transport.trans supplied, steady⟩ told
      (settled.trans (List.append_nil _).symm)
  have goes := Cycle.steps_of_step hc
  cases goes with
  | enter unheld =>
    exact ⟨plain rfl rfl rfl, h.approach rfl now fun _ _ _ _ => Cycle.noConfusion, by decide⟩
  | wait taken =>
    -- The loop waits for nobody: it is the only one to ask for the turn.
    exact absurd (free rfl) taken
  | wake mine =>
    exact ⟨plain rfl rfl rfl, h.approach rfl now fun _ _ _ _ => Cycle.noConfusion, by decide⟩
  | @ship v events queued left taken _ =>
    subst left
    have here : (t.drain loop).1.transport = some tr := supplied
    have handed := State.hand_of_supplied here loop
      ⟨(t.drain loop).1.settings.source, ⟨(t.drain loop).1.now⟩, events⟩ false
    -- The cycle had no batch in `b`, so that no time has passed since.
    obtain ⟨time, entered⟩ := h.fresh rfl
    refine ⟨?_, ?_, by rw [handed]; exact Nat.lt_succ_self 3⟩
    · rw [handed] at apart ⊢
      refine record.step apart ⟨_, rfl, steady.next.2⟩
        [⟨loop, t.now, ⟨t.settings.source, ⟨t.now⟩, events⟩, false⟩] ?_ (fun x hx => ?_) ?_
      · exact handings_ship t.history
      · rw [List.mem_singleton.mp hx]
        exact ⟨other, fun _ => ⟨time, entered⟩⟩
      · exact ((reading_skip rfl).trans (reading_skip rfl)).trans (List.append_nil _).symm
    · exact h.attempt (congrArg Prod.snd handed) steady.next.1
        fun i batch carries => absurd carries (h.empty rfl)
  | @retry batch begun r e answer allowed v told =>
    subst told
    refine ⟨plain rfl ((reading_skip rfl).trans (reading_skip rfl))
      ((reading_skip rfl).trans (reading_skip rfl)), ?_, Nat.lt_succ_self 2⟩
    exact ⟨fun _ _ _ _ he => by contradiction, h.keeps, fun none => by contradiction, h.busy⟩
  | @resume batch resume due =>
    have handed := State.hand_of_supplied supplied loop batch true
    refine ⟨?_, ?_, by rw [handed]; exact Nat.lt_succ_self 1⟩
    · rw [handed] at apart ⊢
      refine record.step apart ⟨_, rfl, steady.next.2⟩ [⟨loop, t.now, batch, true⟩]
        (reading_find rfl) (fun x hx => ?_) ((reading_skip rfl).trans (List.append_nil _).symm)
      rw [List.mem_singleton.mp hx]
      exact ⟨other, fun first => by contradiction⟩
    · refine h.attempt (congrArg Prod.snd handed) steady.next.1 fun i batch' carries => ?_
      exact Option.some.inj (h.keeps i batch' carries)

/-- A flush cycle of the loop that is over has counted its batch. -/
theorem Flying.ends (h : Flying b me loop t c) (record : Record b me [] t) {o : Outcome}
    (hc : c.step t loop retry = .ends u o) : ∃ held, Record b me held u ∧ Landed b me held u := by
  have apart : t.Apart u := Cycle.apart_of_step hc
  obtain ⟨tr, supplied, steady⟩ := record.supplied
  have counted {x : Settlement} {n : Notice} {result : Ending}
      (transport : u.transport = t.transport)
      (history : u.history = .notice n :: .answered loop t.now result :: t.history)
      (counts : (Observation.notice n).settlement? = some x) : Record b me [x] u := by
    refine record.step_plain apart ⟨tr, transport.trans supplied, steady⟩ ?_ ?_
    · rw [history]
      exact (reading_skip rfl).trans (reading_skip rfl)
    · rw [history]
      exact settlements_end counts t.history
  have ends := Cycle.steps_of_step hc
  cases ends with
  | empty nothing =>
    exact ⟨[], record.step_plain apart ⟨tr, supplied, steady⟩ rfl (List.append_nil _).symm,
      h.land_empty rfl⟩
  | discard queued left taken unsupplied =>
    subst left
    cases supplied.symm.trans unsupplied
  | @deliver batch second begun r answer =>
    refine ⟨[⟨⟨batch.size, true⟩, false⟩], counted rfl rfl rfl, ?_⟩
    exact h.land rfl _ rfl fun cut => by contradiction
  | @drop batch second begun r e answer last =>
    refine ⟨[⟨⟨batch.size, false⟩, false⟩], counted rfl rfl rfl, ?_⟩
    exact h.land rfl _ rfl fun cut => by contradiction

/-- No flush cycle of the loop is taken down. -/
theorem Flying.not_breaks (h : Flying b me loop t c) : c.step t loop retry ≠ .breaks u := by
  intro hc
  have breaks := Cycle.steps_of_step hc
  cases breaks with
  | breakDown answer =>
    rcases Response.result_of_resultAfter answer (h.steady _ _ _ _ rfl) with he | ⟨_, he⟩ <;>
      contradiction

/-- A flush cycle of the loop that is cut off at the limit has its batch counted as dropped. -/
theorem Flying.cut (h : Flying b me loop t c) (record : Record b me [] t)
    (late : t.now = b.patience) : ∃ held, Record b me held (c.cancel t loop) ∧
      Landed b me held (c.cancel t loop) := by
  have apart : t.Apart (c.cancel t loop) := c.apart_cancel t loop
  obtain ⟨tr, supplied, steady⟩ := record.supplied
  have empty (none : c.batch? = none) (transport : (c.cancel t loop).transport = t.transport)
      (history : (c.cancel t loop).history = t.history) : ∃ held,
        Record b me held (c.cancel t loop) ∧ Landed b me held (c.cancel t loop) := by
    refine ⟨[], record.step_plain apart ⟨tr, transport.trans supplied, steady⟩ ?_ ?_,
      h.land_empty none⟩
    · rw [history]
    · rw [history, List.append_nil]
  have abandons {batch : Envelope} (mine : c.batch? = some batch)
      (same : c.cancel t loop = (t.abandon batch).release) : ∃ held,
        Record b me held (c.cancel t loop) ∧ Landed b me held (c.cancel t loop) := by
    rw [same] at apart ⊢
    exact ⟨[⟨⟨batch.size, false⟩, true⟩], record.step_plain apart ⟨tr, supplied, steady⟩
      (reading_skip rfl) (reading_find rfl), h.land mine _ rfl fun _ => ⟨rfl, late⟩⟩
  cases c with
  | arriving => exact empty rfl rfl rfl
  | waiting => exact empty rfl rfl rfl
  | admitted => exact empty rfl rfl rfl
  | attempting batch second begun r => exact abandons rfl rfl
  | pausing batch resume => exact abandons rfl rfl

/-- A flush cycle of the loop that cannot go on has a batch, and waits for a time to come. -/
theorem Flying.waits (h : Flying b me loop t c) (record : Record b me held t)
    (mine : c = .waiting → t.turn.holder = some loop) (hc : c.step t loop retry = .waits) :
    c.batch? ≠ none ∧ ∃ limit, c.deadline t.settings.deliveryTimeout = some limit ∧
      t.now < limit := by
  obtain ⟨tr, supplied, _⟩ := record.supplied
  cases c with
  | arriving => contradiction
  | waiting =>
    rw [Cycle.step, if_pos (mine rfl)] at hc
    contradiction
  | admitted =>
    by_cases empty : t.queue = []
    · rw [Cycle.step, if_pos empty] at hc
      contradiction
    · rw [State.cycle_dispatches loop supplied empty] at hc
      contradiction
  | attempting batch second begun r =>
    refine ⟨Option.some_ne_none batch, _, rfl, ?_⟩
    have early : r.resultAfter (t.now - begun) t.settings.deliveryTimeout = none := by
      cases answer : r.resultAfter (t.now - begun) t.settings.deliveryTimeout with
      | none => rfl
      | some result =>
        simp only [Cycle.step, answer] at hc
        rcases Response.result_of_resultAfter answer (h.steady _ _ _ _ rfl) with rfl | ⟨e, rfl⟩
        · contradiction
        · cases again : retry && !second <;> rw [again] at hc <;> contradiction
    have due := Response.resultAfter_isSome_iff r (t.now - begun) t.settings.deliveryTimeout
    rw [early] at due
    have unfinished : ¬ r.duration t.settings.deliveryTimeout ≤ t.now - begun :=
      fun hl => Bool.false_ne_true (due.mpr hl)
    omega
  | pausing batch resume =>
    refine ⟨Option.some_ne_none batch, resume, rfl, ?_⟩
    by_contra late
    rw [Cycle.step, if_pos (Nat.le_of_not_lt late)] at hc
    contradiction

end record

end EventRelay.Publisher
