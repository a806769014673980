import EventRelay.Proofs.Publisher.Awaiting
import EventRelay.Proofs.Publisher.Summons

/-!
# A shutdown from its beginning to its end

A shutdown that begins takes charge of the loop, if there is one: it waits for it, has the queue to
itself once the loop has ended, and makes its final flush. The loop that it finds is in a flush
cycle, or it hears the signal; or the transport has taken it down before.
-/

namespace EventRelay.Publisher

/-- A shutdown that began in `b` is under way. -/
inductive ShuttingDown (b : State) (me : ActivityId) (t : State) : Prop
  /-- It waits for the loop. -/
  | waits {loop : ActivityId} {held : List Settlement} {cut : Bool}
    (awaits : Awaits b me loop held cut t) : ShuttingDown b me t
  /-- It makes its final flush, which began in `base`. -/
  | flushes {base : State} {tr : Transport} {held : List Settlement} {k : Nat}
    {stage : Finale.Stage} (arrived : Arrived b me held base) (supplied : base.transport = some tr)
    (finale : OnFinale base tr me k stage t) : ShuttingDown b me t

/-- A shutdown that began in `b` has returned. -/
inductive ShutDown (b : State) (me : ActivityId) (t : State) : Prop
  /-- Its final flush, which began in `base`, is over. -/
  | returned {base : State} {tr : Transport} {held : List Settlement}
    (arrived : Arrived b me held base) (supplied : base.transport = some tr)
    (finale : AfterFinale base tr me t) : ShutDown b me t

/-- No answer that is to come is a breakdown. -/
theorem Arrived.steady {b t : State} {me : ActivityId} {held : List Settlement}
    (h : Arrived b me held t) {tr : Transport} (supplied : t.transport = some tr) : tr.Steady := by
  obtain ⟨tr', supplied', steady⟩ := h.record.supplied
  obtain rfl := Option.some.inj (supplied'.symm.trans supplied)
  exact steady

namespace ShuttingDown

variable {b t : State} {me : ActivityId}

/-- A shutdown goes on until it has returned. -/
theorem keeps (b : State) (me : ActivityId) :
    State.Keeps me (ShuttingDown b me) (ShutDown b me) where
  winding := by
    rintro t (awaits | ⟨_, _, finale⟩)
    · exact awaits.winding
    · exact finale.winding
  beside := by
    rintro t u (awaits | ⟨arrived, supplied, finale⟩) reached beside
    · exact .waits (awaits.beside reached beside)
    · obtain ⟨_, _, on⟩ :=
        (OnFinale.keeps _ me (arrived.steady supplied)).beside ⟨_, _, finale⟩ reached beside
      exact .flushes arrived supplied on
  loop := by
    rintro t u i l c (awaits | ⟨arrived, supplied, finale⟩) hi ha hs reached
    · obtain rfl := awaits.only ha
      obtain ⟨_, awaits', _⟩ := awaits.loop_step hs reached
      exact .waits awaits'
    · obtain ⟨_, _, on⟩ :=
        (OnFinale.keeps _ me (arrived.steady supplied)).loop ⟨_, _, finale⟩ hi ha hs reached
      exact .flushes arrived supplied on
  mine := by
    rintro t u (awaits | ⟨arrived, supplied, finale⟩) hs reached
    · rcases awaits.mine_step hs reached with ⟨_, told, _⟩ | arrived
      · exact .inl (.waits told)
      · obtain ⟨_, supplied, _⟩ := arrived.record.supplied
        exact .inl (.flushes arrived supplied (arrived.begins supplied))
    · rcases (OnFinale.keeps _ me (arrived.steady supplied)).mine ⟨_, _, finale⟩ hs reached with
        ⟨_, _, on⟩ | after
      · exact .inl (.flushes arrived supplied on)
      · exact .inr (.returned arrived supplied after)
  elapse := by
    rintro t millis (awaits | ⟨arrived, supplied, finale⟩) prompt reached
    · exact .waits (awaits.elapse prompt reached)
    · obtain ⟨_, _, on⟩ :=
        (OnFinale.keeps _ me (arrived.steady supplied)).elapse ⟨_, _, finale⟩ prompt reached
      exact .flushes arrived supplied on
  ended := by
    rintro t ⟨_, _, finale⟩
    rw [State.isEnded, finale.activity]

/-- A shutdown that is under way has begun. -/
theorem begun (h : ShuttingDown b me t) :
    ∃ d, t.activity? me = some (.shutdown d) ∧ d ≠ .called := by
  cases h with
  | waits awaits =>
    refine ⟨_, awaits.mine, ?_⟩
    split <;> exact Shutdown.noConfusion
  | flushes arrived supplied finale => exact ⟨_, finale.activity, Shutdown.noConfusion⟩

/-- A shutdown that is under way has not returned, and it can be run to its end. -/
theorem can_end (h : ShuttingDown b me t) : t.isEnded me = false ∧ t.CanEnd me := by
  cases h with
  | waits awaits => exact ⟨by rw [State.isEnded, awaits.mine], awaits.can_end⟩
  | flushes arrived supplied finale =>
    exact ⟨by rw [State.isEnded, finale.activity]; rfl, finale.can_end (arrived.steady supplied)⟩

end ShuttingDown

namespace State

/-- A shutdown is called while no flush is in progress, and neither an attempt that is under way nor
one that is to come breaks down. -/
structure Calls (s : State) (me : ActivityId) (tr : Transport) : Prop where
  /-- The shutdown was called. -/
  called : s.activity? me = some (.shutdown .called)
  /-- There is a way to the collector. -/
  supplied : s.transport = some tr
  /-- No answer that is to come is a breakdown. -/
  steady : tr.Steady
  /-- No answer to an attempt that is under way is one. -/
  answers : ∀ {i a batch second begun r}, s.activity? i = some a →
    a.cycle? = some (.attempting batch second begun r) → r.ending ≠ .breakdown
  /-- No flush is in progress. -/
  unflushed : ∀ {i c}, s.activity? i ≠ some (.flush c)

/-- A shutdown begins: the publisher is closed, and nothing happens to the queue, to batches and to
others. -/
structure Begins (me : ActivityId) (s b : State) : Prop where
  /-- The settings are the same. -/
  settings : b.settings = s.settings
  /-- No answer is used up. -/
  transport : b.transport = s.transport
  /-- Nothing is taken or queued. -/
  queue : b.queue = s.queue
  /-- No time passes. -/
  now : b.now = s.now
  /-- Nothing is delivered, dropped or handed over. -/
  told : deliveries b.history = deliveries s.history
  /-- The others stand where they stood. -/
  others : ∀ {i}, i ≠ me → b.activity? i = s.activity? i

variable {s b : State} {me loop : ActivityId} {tr : Transport}

/-- A reading that only looks at deliveries finds nothing new. -/
theorem Begins.reading {α : Type} {read : Observation → Option α} (h : s.Begins me b)
    (blind : ∀ o, o.delivery? = none → read o = none) :
    Publisher.reading read b.history = Publisher.reading read s.history := by
  rw [reading_deliveries blind, reading_deliveries blind, h.told]

/-- The publisher winds down from the beginning of a shutdown on. -/
private theorem Begins.winding (h : s.Begins me b) (calls : s.Calls me tr)
    (sound : s.lifecycle.Sound) (allowed : s.phase ≠ .stopping) (reached : b.Reached)
    (flags : b.closed = true ∧ b.shutdown = true ∧ b.phase = .stopping) : b.Winding me where
  reached := reached
  closed := flags.1
  shutdown := flags.2.1
  stopping := flags.2.2
  others := by
    intro i a ha
    by_cases hi : i = me
    · exact .inl hi
    · rw [h.others hi] at ha
      cases a with
      | loop l c => exact .inr (.inr ⟨l, c, rfl⟩)
      | flush c => exact absurd ha calls.unflushed
      | ended c => exact .inr (.inl (.ended c))
      | shutdown d =>
        have fresh : d = .called := by
          by_contra begun
          obtain ⟨awaits, entry⟩ := part_of_begun ha begun
          exact allowed (sound.awaited entry).1
        subst fresh
        exact .inr (.inl .called)

/-- When a shutdown begins nothing has happened since. -/
private theorem Begins.record (h : s.Begins me b) (calls : s.Calls me tr) : Record b me [] b where
  settings := rfl
  supplied := ⟨tr, h.transport.trans calls.supplied, calls.steady⟩
  queue := Nat.le_refl _
  handed := ⟨[], (List.append_nil _).symm, fun _ hx => by contradiction⟩
  settled := (List.append_nil _).symm

/-- Whoever carries a batch while a shutdown begins is a loop. -/
private theorem Winding.carrier (h : b.Winding me) {d : Shutdown}
    (mine : b.activity? me = some (.shutdown d))
    (before : ∀ c sent lost, d = .flushing c sent lost → c = .arriving) {i : ActivityId}
    {batch : Envelope} (carries : b.Carries i batch) : ∃ tick c cancelled,
      b.activity? i = some (.loop (.flushing tick c) cancelled) ∧ c.batch? = some batch := by
  obtain ⟨a, c, ha, hc, hb⟩ := carries
  rcases h.others ha with rfl | aloof | ⟨l, cancelled, rfl⟩
  · obtain rfl := Option.some.inj (mine.symm.trans ha)
    cases d with
    | flushing c' sent lost =>
      obtain rfl := Option.some.inj hc
      rw [before _ _ _ rfl] at hb
      contradiction
    | _ => contradiction
  · rw [aloof.cycle] at hc
    contradiction
  · cases l with
    | flushing tick c' =>
      obtain rfl := Option.some.inj hc
      exact ⟨tick, c', cancelled, ha, hb⟩
    | _ => contradiction

/-- If nobody carries a batch when a shutdown begins, none has to be counted. -/
private theorem landed_of_none (nobody : ∀ i batch, ¬ b.Carries i batch) : Landed b me [] b where
  few := Nat.zero_le 1
  counted := fun i batch carries => absurd carries (nobody i batch)
  still := fun _ => Unmoved.refl b

/-- A shutdown that begins and finds no loop has the queue to itself. -/
private theorem Begins.alone (h : s.Begins me b) (calls : s.Calls me tr) (winding : b.Winding me)
    (mine : b.activity? me = some (.shutdown (.flushing .arriving 0 0)))
    (none : ∀ i l c, s.activity? i ≠ some (.loop l c)) : Arrived b me [] b where
  winding := winding
  record := h.record calls
  landed := landed_of_none fun i batch carries => by
    obtain ⟨tick, c, cancelled, ha, _⟩ := winding.carrier mine (fun _ _ _ he => by cases he; rfl)
      carries
    have other : i ≠ me := by
      rintro rfl
      cases mine.symm.trans ha
    exact none _ _ _ ((h.others other).symm.trans ha)
  early := Nat.le_add_right _ _
  mine := mine

/-- A shutdown that begins and finds the loop waits for it. -/
private theorem Begins.waits (h : s.Begins me b) (calls : s.Calls me tr) (winding : b.Winding me)
    (mine : b.activity? me = some (.shutdown (.joining loop b.patience)))
    (only : ∀ i l c, s.activity? i = some (.loop l c) → i = loop)
    (known : (∃ l, s.activity? loop = some (.loop l false) ∧
      b.shutdownSignal.readyFor loop = true) ∨ ∃ c, s.activity? loop = some (.ended c)) :
    Awaits b me loop [] false b := by
  have other : loop ≠ me := by
    rintro rfl
    rcases known with ⟨l, ha, _⟩ | ⟨c, ha⟩ <;> cases calls.called.symm.trans ha
  -- Whoever carries a batch is the loop: the shutdown has none, and the others have no part.
  have carrier {i : ActivityId} {batch : Envelope} (carries : b.Carries i batch) :
      ∃ tick c cancelled, s.activity? loop = some (.loop (.flushing tick c) cancelled) ∧
        c.batch? = some batch := by
    obtain ⟨tick, c, cancelled, ha, hb⟩ :=
      winding.carrier mine (fun _ _ _ he => by cases he) carries
    have apart : i ≠ me := by
      rintro rfl
      cases mine.symm.trans ha
    rw [h.others apart] at ha
    obtain rfl := only _ _ _ ha
    exact ⟨tick, c, cancelled, ha, hb⟩
  have calm {l : Loop} (ha : s.activity? loop = some (.loop l false))
      (hl : ∀ tick c, l ≠ .flushing tick c) : Landed b me [] b := by
    refine landed_of_none fun i batch carries => ?_
    obtain ⟨tick, c, cancelled, he, _⟩ := carrier carries
    cases ha.symm.trans he
    exact hl tick c rfl
  have standing : ∃ a, b.activity? loop = some a ∧ Standing b me loop [] false b a := by
    rw [h.others other]
    rcases known with ⟨l, ha, ready⟩ | ⟨c, ha⟩
    · refine ⟨_, ha, ?_⟩
      have here := (h.others other).trans ha
      cases l with
      | flushing tick c =>
        refine .flying rfl ⟨fun batch second begun r hc => ?_, fun i batch carries => ?_,
          fun none => ⟨rfl, _, c, here, rfl, none⟩, loop, _, other, here, Option.some_ne_none c⟩
        · exact calls.answers ha (congrArg some hc)
        · obtain ⟨tick, c, cancelled, he, hb⟩ := carrier carries
          cases ha.symm.trans he
          exact hb
      | _ =>
        exact .calm ⟨fun _ _ => Loop.noConfusion, fun _ _ => ready⟩
          (calm ha fun _ _ => Loop.noConfusion)
    · refine ⟨_, ha, .gone (landed_of_none fun i batch carries => ?_)⟩
      obtain ⟨tick, c, cancelled, he, _⟩ := carrier carries
      cases ha.symm.trans he
  exact {
    winding := winding
    record := h.record calls
    mine := mine
    early := Nat.le_add_right _ _
    late := fun he => by contradiction
    loop := standing }

end State

namespace State

variable {s : State} {loop i : ActivityId}

/-- Without a worker no loop lives, unless a shutdown has taken charge of it. -/
private theorem loopless (sound : s.lifecycle.Sound) (allowed : s.phase ≠ .stopping)
    (idle : s.worker = none) (l : Loop) (c : Bool) : s.activity? i ≠ some (.loop l c) := by
  intro ha
  obtain ⟨up, _⟩ := sound.loops (part_of_activity ha)
  cases hp : s.phase with
  | stopped => exact up hp
  | running => exact (sound.running hp).2 idle
  | stopping => exact allowed hp

/-- The worker is the only loop. It lives, or the transport has taken it down. -/
private theorem charged (sound : s.lifecycle.Sound) (vigilant : s.Vigilant)
    (manned : s.lifecycle.Manned) (worker : s.worker = some loop) :
    s.shutdown = false ∧ (∀ i l c, s.activity? i = some (.loop l c) → i = loop) ∧
      ((∃ l, s.activity? loop = some (.loop l false)) ∨
        ∃ c, s.activity? loop = some (.ended c)) := by
  have running : s.phase = .running := by
    by_contra resting
    cases worker.symm.trans (sound.resting resting)
  have up : s.shutdown = false := vigilant.shut.symm.trans (sound.running running).1
  refine ⟨up, fun i l c ha => ?_, ?_⟩
  · have known := (sound.loops (part_of_activity ha)).2 running
    exact Option.some.inj (known.symm.trans worker)
  · obtain ⟨i, hi, known⟩ := manned running
    obtain rfl : i = loop := Option.some.inj (hi.symm.trans worker)
    rcases known with lives | broken
    · obtain ⟨l, c, ha⟩ := loop_of_part lives
      obtain ⟨rfl, _⟩ := vigilant.loop ha up
      exact .inl ⟨l, ha⟩
    · exact .inr ⟨_, ended_of_part broken⟩

end State

/-- A shutdown that is called while none has begun begins with its first step, and is under way from
then on. -/
theorem Made.begins_shutting_down {s₀ s : State} (made : Made s₀) {actions : List Action}
    (run : s₀.run actions = s) {me : ActivityId} {tr : Transport} (calls : s.Calls me tr)
    (allowed : s.phase ≠ .stopping) :
    s.Begins me (s.apply (.step me)) ∧
      ShuttingDown (s.apply (.step me)) me (s.apply (.step me)) := by
  subst run
  have sound := made.sound actions
  have vigilant := made.vigilant actions
  have manned := made.manned actions
  have summoned {i : ActivityId} {l : Loop} {c : Bool}
      (lives : (s₀.run actions).activity? i = some (.loop l c))
      (up : (s₀.run actions).shutdown = false) := made.summoned actions lives up
  have reached := (made.reached actions).run [.step me]
  rw [State.run_cons, State.run_nil] at reached
  generalize s₀.run actions = s at *
  obtain ⟨u, d, moved, step, stages⟩ := State.begins_of_called calls.called allowed
  obtain ⟨mine, others⟩ := State.activity_of_begun calls.called moved d
  rw [State.apply_step step] at reached ⊢
  have begins : s.Begins me (u.closing.setShutdown me d) := by
    obtain ⟨p, _, rfl⟩ := Option.map_eq_some_iff.mp moved
    exact ⟨rfl, rfl, rfl, rfl, reading_skip rfl, fun hi => others _ hi⟩
  have stopping : u.phase = .stopping := by
    have next := (State.lifecycle_move moved).1
    cases hp : s.phase with
    | stopping => exact absurd hp allowed
    | _ =>
      rw [hp] at next
      exact (Option.some.inj next).symm
  have worker : u.worker = s.worker :=
    congrArg Lifecycle.worker (State.lifecycle_move moved).2
  have signal : u.shutdownSignal = s.shutdownSignal := by
    obtain ⟨p, _, rfl⟩ := Option.map_eq_some_iff.mp moved
    rfl
  have winding := begins.winding calls sound allowed reached ⟨rfl, rfl, stopping⟩
  refine ⟨begins, ?_⟩
  rcases stages with ⟨idle, rfl⟩ | ⟨loop, busy, rfl⟩
  · have alone := begins.alone calls winding mine fun i =>
      State.loopless sound allowed (worker.symm.trans idle)
    have supplied := begins.transport.trans calls.supplied
    exact .flushes alone supplied (alone.begins supplied)
  · obtain ⟨up, only, known⟩ := State.charged sound vigilant manned (worker.symm.trans busy)
    refine .waits (begins.waits calls winding mine only ?_)
    rcases known with ⟨l, ha⟩ | ended
    · refine .inl ⟨l, ha, ?_⟩
      change u.shutdownSignal.notify.readyFor loop = true
      rw [signal]
      exact summoned ha up
    · exact .inr ended

/-- A shutdown that is called while another one is in progress returns with its first step, and
changes nothing else. -/
theorem Made.returns_at_once {s₀ s : State} (made : Made s₀) {actions : List Action}
    (run : s₀.run actions = s) {me i : ActivityId} {d : Shutdown}
    (called : s.activity? me = some (.shutdown .called))
    (shutting : s.activity? i = some (.shutdown d)) (begun : d ≠ .called) :
    s.apply (.step me) = (s.report (.stopRepeated s.phase)).close me .stopped := by
  obtain ⟨awaits, entry⟩ := State.part_of_begun shutting begun
  have sound : s.lifecycle.Sound := run ▸ made.sound actions
  exact State.apply_step (State.returns_of_called called (sound.awaited entry).1)

end EventRelay.Publisher
