import EventRelay.Proofs.Publisher.Bursts
import Mathlib.Data.List.Induction
import Mathlib.Logic.Function.Iterate

/-!
# Shipping by size

A burst of events that reaches a publisher at rest is followed until the next tick of the loop.
Whatever else happens meanwhile, the loop comes to its waiting after a bounded number of steps. If
it was started after the burst, it has shipped the whole batches and left the rest. If it was
waiting when the burst came, it ships the rest as well, unless there is no second notification or
nothing left for it.
-/

namespace EventRelay.Publisher

namespace State

variable {s t : State} {me : ActivityId} {limit : Nat} {es : List Event} {g : Surplus} {l : Loop}
  {settled : List (List Event)}

namespace Serves

private theorem effort_le_fuel (h : Serves s t me limit es g l settled) : t.effort l ≤ t.fuel := by
  have stretch : l.stretch t.wake ≤ 7 := by
    cases l with
    | flushing tick c => cases c <;> exact of_decide_eq_true rfl
    | parked tick => exact Nat.le_trans (Nat.sub_le _ _) (by decide)
    | _ => exact of_decide_eq_true rfl
  have called : t.wake.called.length ≤ 1 := by
    have single {w : Signal} (he : t.wake = w) (hw : w.called.length ≤ 1) :
        t.wake.called.length ≤ 1 := he ▸ hw
    cases h.stands with
    | waits wake => exact single wake (Nat.zero_le 1)
    | called wake => exact single wake (Nat.le_refl 1)
    | created wake => exact single wake (Nat.zero_le 1)
    | resting wake => exact single wake (Nat.zero_le 1)
    | looks wake => exact single wake (Nat.zero_le 1)
    | draining wake => exact single wake (Nat.zero_le 1)
    | arriving wake => exact single wake (Nat.zero_le 1)
    | admitted wake => exact single wake (Nat.zero_le 1)
    | attempting wake => exact single wake (Nat.zero_le 1)
  have stored : t.wake.stored.toNat ≤ 1 := Bool.toNat_le _
  unfold effort fuel
  omega

/-- A loop that runs until it has to wait comes to its waiting. -/
private theorem advance (fuel : Nat) : ∀ {t : State} {g : Surplus} {l : Loop}
    {settled : List (List Event)}, Serves s t me limit es g l settled → t.now < limit →
    ∃ g' l' settled', (t.advance me fuel).now = t.now ∧
      (t.effort l ≤ fuel → (t.advance me fuel).step? me = none) ∧
      (g' = .absent ↔ g = .absent) ∧
      Serves s (t.advance me fuel) me limit es g' l' settled' := by
  induction fuel with
  | zero =>
    intro t g l settled h early
    refine ⟨g, l, settled, rfl, fun spent => ?_, Iff.rfl, h⟩
    rcases h.step early with ⟨rests, _⟩ | ⟨t', g', l', settled', _, _, less, _⟩
    · exact rests
    · exact absurd less (Nat.not_lt_of_le (Nat.le_trans spent (Nat.zero_le _)))
  | succ fuel ih =>
    intro t g l settled h early
    rcases h.step early with ⟨rests, _⟩ | ⟨t', g', l', settled', step, now, less, origin, h'⟩
    · have still : t.advance me (fuel + 1) = t := by rw [State.advance, rests]
      rw [still]
      exact ⟨g, l, settled, rfl, fun _ => rests, Iff.rfl, h⟩
    · have goes : t.advance me (fuel + 1) = t'.advance me fuel := by rw [State.advance, step]
      obtain ⟨g'', l'', settled'', now', rests, origin', h''⟩ := ih h' (now ▸ early)
      rw [goes]
      exact ⟨g'', l'', settled'', now'.trans now,
        fun enough => rests (Nat.le_of_lt_succ (Nat.lt_of_lt_of_le less enough)),
        origin'.trans origin, h''⟩

/-- Letting the loop run is enough to make it wait. -/
theorem poll (h : Serves s t me limit es g l settled) (early : t.now < limit) :
    ∃ g' l' settled', (t.poll me).now = t.now ∧ (t.poll me).step? me = none ∧
      (g' = .absent ↔ g = .absent) ∧ Serves s (t.poll me) me limit es g' l' settled' := by
  obtain ⟨g', l', settled', now, rests, origin, h'⟩ := h.advance t.fuel early
  exact ⟨g', l', settled', now, rests h.effort_le_fuel, origin, h'⟩

/-- Time passes before the tick. -/
private theorem elapse (h : Serves s t me limit es g l settled) (millis : Nat) :
    Serves s (t.elapse millis) me limit es g l settled := by
  have stands : (t.elapse millis).Stands me g l := by
    cases h.stands with
    | created wake leaves => exact .created wake leaves
    | resting wake leaves => exact .resting wake leaves
    | looks wake leaves => exact .looks wake leaves
    | waits wake listens short none leaves => exact .waits wake listens short none leaves
    | called wake full fresh => exact .called wake full fresh
    | draining wake finds => exact .draining wake finds
    | arriving wake finds => exact .arriving wake finds
    | admitted wake finds => exact .admitted wake finds
    | attempting wake carries => exact .attempting wake carries
  have due : limit ≤ l.due (t.elapse millis) := by
    refine Nat.le_trans h.due ?_
    cases l with
    | created => exact Nat.add_le_add_right (Nat.le_add_right _ _) _
    | _ => exact Nat.le_refl _
  exact { h with stands, due }

/-- Nobody else does anything. -/
private theorem others_wait (h : Serves s t me limit es g l settled) {i : ActivityId}
    (hi : i ≠ me) : t.step? i = none ∧ t.cancel i = t := by
  unfold step? cancel
  cases ha : t.activity? i with
  | none => exact ⟨rfl, rfl⟩
  | some a =>
    obtain ⟨c, rfl⟩ := h.others i a hi ha
    exact ⟨rfl, rfl⟩

/-- Whatever else happens before the tick, the loop goes on in the same way. -/
theorem apply (h : Serves s t me limit es g l settled) {a : Action} (calm : a.Calm)
    (early : t.now + a.millis < limit) :
    ∃ g' l' settled', (t.apply a).now = t.now + a.millis ∧ (g' = .absent ↔ g = .absent) ∧
      Serves s (t.apply a) me limit es g' l' settled' := by
  have same {u : State} (hu : u = t) (none : a.millis = 0) :
      ∃ g' l' settled', u.now = t.now + a.millis ∧ (g' = .absent ↔ g = .absent) ∧
        Serves s u me limit es g' l' settled' := by
    rw [hu, none]
    exact ⟨g, l, settled, rfl, Iff.rfl, h⟩
  cases a with
  | offer e => exact calm.elim
  | flush => exact calm.elim
  | shutdown => exact calm.elim
  | start runtime =>
    refine same ?_ rfl
    simp only [State.apply, start, h.on, h.opened, h.running, Bool.not_true, Bool.false_eq_true,
      if_false]
    cases runtime <;> rfl
  | step i =>
    by_cases hi : i = me
    · subst hi
      rcases h.step early with ⟨rests, _⟩ | ⟨t', g', l', settled', step, now, _, origin, h'⟩
      · exact same (by rw [State.apply, rests, Option.getD_none]) rfl
      · rw [State.apply, step]
        exact ⟨g', l', settled', now, origin, h'⟩
    · exact same (by rw [State.apply, (h.others_wait hi).1, Option.getD_none]) rfl
  | poll i =>
    by_cases hi : i = me
    · subst hi
      obtain ⟨g', l', settled', now, _, origin, h'⟩ := h.poll early
      exact ⟨g', l', settled', now, origin, h'⟩
    · refine same ?_ rfl
      change t.advance i (8 * t.queue.length + 63 + 1) = t
      rw [State.advance, (h.others_wait hi).1]
  | cancel i =>
    by_cases hi : i = me
    · subst hi
      exact same (by rw [State.apply, h.stage]) rfl
    · refine same ?_ rfl
      rw [State.apply, (h.others_wait hi).2]
      split <;> rfl
  | elapse millis => exact ⟨g, l, settled, rfl, Iff.rfl, h.elapse millis⟩

/-- So it goes on until the tick. -/
theorem run (h : Serves s t me limit es g l settled) {during : List Action}
    (calm : ∀ a ∈ during, a.Calm) (early : t.now + elapsed during < limit) :
    ∃ g' l' settled', (t.run during).now = t.now + elapsed during ∧ (g' = .absent ↔ g = .absent) ∧
      Serves s (t.run during) me limit es g' l' settled' := by
  induction during generalizing t g l settled with
  | nil => exact ⟨g, l, settled, rfl, Iff.rfl, h⟩
  | cons a rest ih =>
    have split : elapsed (a :: rest) = a.millis + elapsed rest := List.sum_cons
    rw [split, ← Nat.add_assoc] at early ⊢
    obtain ⟨g', l', settled', now, origin, h'⟩ := h.apply (calm a (List.mem_cons_self ..))
      (Nat.lt_of_le_of_lt (Nat.le_add_right _ _) early)
    rw [← now] at early ⊢
    obtain ⟨g'', l'', settled'', now', origin', h''⟩ :=
      ih h' (fun x hx => calm x (List.mem_cons_of_mem _ hx)) early
    exact ⟨g'', l'', settled'', now', origin'.trans origin, h''⟩

end Serves

/-- The batches that were taken before the tick are whole ones. -/
def ShipsWhole (s t : State) (es : List Event) : Prop :=
  ∃ batches, drained t.history = drained s.history ++ batches ∧ batches.flatten ++ t.queue = es ∧
    ∀ x ∈ batches, x.length = s.settings.batchSize.value

/-- As many whole batches were delivered as there were, and what is left is queued. -/
def ShippedWhole (s t : State) (es : List Event) : Prop :=
  ∃ batches, s.Ships t es batches ∧ (∀ x ∈ batches, x.length = s.settings.batchSize.value) ∧
    batches.length = es.length / s.settings.batchSize.value ∧
    t.queue.length = es.length % s.settings.batchSize.value

/-- As many whole batches were delivered as there were, and then what was left. -/
def ShippedAll (s t : State) (es : List Event) : Prop :=
  ∃ full rest, s.Ships t es (full ++ [rest]) ∧
    (∀ x ∈ full, x.length = s.settings.batchSize.value) ∧
    full.length = es.length / s.settings.batchSize.value ∧
    rest.length = es.length % s.settings.batchSize.value ∧ t.queue = []

section sizes

variable {size : Nat} {full : List (List Event)} {rest : List Event}

private theorem length_flatten_whole (whole : ∀ x ∈ full, x.length = size) :
    full.flatten.length = size * full.length := by
  induction full with
  | nil => rfl
  | cons x xs ih =>
    have hx : x.length = size := whole x (List.mem_cons_self ..)
    have hxs := ih fun y hy => whole y (List.mem_cons_of_mem _ hy)
    rw [List.flatten_cons, List.length_append, hx, hxs, List.length_cons, Nat.mul_succ,
      Nat.add_comm]

/-- Whole batches and a smaller rest are counted by division. -/
private theorem count_whole (whole : ∀ x ∈ full, x.length = size) (short : rest.length < size)
    (order : full.flatten ++ rest = es) :
    full.length = es.length / size ∧ rest.length = es.length % size := by
  have total : rest.length + size * full.length = es.length := by
    rw [← order, List.length_append, length_flatten_whole whole, Nat.add_comm]
  have split := (Nat.div_mod_unique (Nat.zero_lt_of_lt short)).mpr ⟨total, short⟩
  exact ⟨split.1.symm, split.2.symm⟩

end sizes

namespace Serves

/-- Without a second notification only whole batches are taken. -/
theorem shipsWhole (h : Serves s t me limit es .absent l settled) : s.ShipsWhole t es := by
  refine ⟨settled ++ l.cargo, h.drained, h.order, ?_⟩
  rw [← h.settings]
  exact h.sizes

private theorem ships_of_rest (h : Serves s t me limit es g l settled) (empty : l.cargo = []) :
    s.Ships t es settled := by
  have none : settled ++ l.cargo = settled := by rw [empty, List.append_nil]
  have drained := h.drained
  have order := h.order
  rw [none] at drained order
  exact ⟨drained, h.delivered, order⟩

/-- Without a second notification the loop stops at less than a batch. -/
theorem shippedWhole (h : Serves s t me limit es .absent l settled) (early : t.now < limit)
    (rests : t.step? me = none) : s.ShippedWhole t es := by
  rcases h.step early with ⟨_, short, _, _, empty⟩ | ⟨t', _, _, _, step, _⟩
  · have ships := h.ships_of_rest empty
    have whole : ∀ x ∈ settled, x.length = s.settings.batchSize.value := by
      have sizes := h.sizes
      rw [empty, List.append_nil] at sizes
      rw [← h.settings]
      exact sizes
    have less : t.queue.length < s.settings.batchSize.value := by
      rw [← h.settings]
      exact Nat.lt_of_not_le short
    exact ⟨settled, ships, whole, count_whole whole less ships.order⟩
  · cases rests.symm.trans step

/-- With a second notification it does not stop before the queue is empty. -/
theorem shippedRest (h : Serves s t me limit es g l settled) (early : t.now < limit)
    (rests : t.step? me = none) (second : g ≠ .absent) :
    (s.settings.batchSize.value ∣ es.length → s.ShippedWhole t es) ∧
      (¬ s.settings.batchSize.value ∣ es.length → s.ShippedAll t es) := by
  rcases h.step early with ⟨_, _, unkept, leaves, empty⟩ | ⟨t', _, _, _, step, _⟩
  · have ships := h.ships_of_rest empty
    cases g with
    | absent => exact absurd rfl second
    | kept => exact absurd rfl unkept
    | taken =>
      have gone : t.queue = [] := leaves
      obtain ⟨full, rest, whole, short, taken⟩ := h.sizes
      rw [h.settings] at whole short
      rw [empty, List.append_nil] at taken
      have order := ships.order
      rcases taken with ⟨rfl, rfl⟩ | ⟨some, rfl, _⟩
      · -- Nothing was left, so that the second notification has changed nothing.
        obtain ⟨count, left⟩ := count_whole whole short order
        refine ⟨fun _ => ⟨settled, ships, whole, count, left⟩, fun uneven => absurd ?_ uneven⟩
        rw [gone] at left
        exact Nat.dvd_of_mod_eq_zero left.symm
      · rw [gone, List.append_nil, List.flatten_append, List.flatten_singleton] at order
        obtain ⟨count, left⟩ := count_whole whole short order
        refine ⟨fun even => absurd ?_ some, fun _ => ⟨full, rest, ships, whole, count, left, gone⟩⟩
        rw [Nat.mod_eq_zero_of_dvd even] at left
        exact List.eq_nil_of_length_eq_zero left
  · cases rests.symm.trans step

end Serves

/-- An event that is taken joins the queue, and the loop is notified if a batch is full then. -/
private theorem offer_taken (on : s.enabled = true) (opened : s.closed = false)
    (room : s.queue.length < s.settings.maxQueueSize.value) (e : Event) :
    ∃ stats, (s.offer e).1 = { s with
      queue := s.queue ++ [e]
      stats := stats
      wake := if s.settings.batchSize.value ≤ s.queue.length + 1 then s.wake.notify else s.wake
      history := .offered e .accepted :: s.history } := by
  have accepts : ¬ (!s.enabled || s.closed) = true := by
    rw [on, opened]
    decide
  have length : (s.queue ++ [e]).length = s.queue.length + 1 := List.length_append
  rw [offer, if_neg accepts, if_pos room]
  dsimp only
  rw [length]
  split
  · exact ⟨_, rfl⟩
  · exact ⟨_, rfl⟩

/-- What is offered to an open publisher with an empty queue is queued, and the loop is notified of
every event from the last one of the first batch on. -/
theorem run_offers (on : s.enabled = true) (opened : s.closed = false) (empty : s.queue = [])
    (fits : es.length ≤ s.settings.maxQueueSize.value) :
    ∃ stats history, s.run (es.map .offer) = { s with
      queue := es
      stats := stats
      wake := Signal.notify^[es.length + 1 - s.settings.batchSize.value] s.wake
      history := history } ∧
      drained history = drained s.history ∧ tallies history = tallies s.history := by
  have size : 0 < s.settings.batchSize.value := s.settings.batchSize.pos
  induction es using List.reverseRecOn with
  | nil =>
    refine ⟨s.stats, s.history, ?_, rfl, rfl⟩
    have none : ([] : List Event).length + 1 - s.settings.batchSize.value = 0 :=
      Nat.sub_eq_zero_of_le size
    rw [none]
    exact congrArg (fun queue => { s with queue := queue }) empty
  | append_singleton es e ih =>
    rw [List.length_append, List.length_singleton] at fits
    obtain ⟨stats, history, before, drains, counts⟩ := ih (Nat.le_of_lt fits)
    obtain ⟨stats', after⟩ := offer_taken (s := s.run (es.map .offer)) (by rw [before]; exact on)
      (by rw [before]; exact opened) (by rw [before]; exact fits) e
    have offered : s.run ((es ++ [e]).map .offer) = ((s.run (es.map .offer)).offer e).1 := by
      rw [List.map_append, run_append]
      rfl
    refine ⟨stats', .offered e .accepted :: history, ?_, (reading_skip rfl).trans drains,
      (reading_skip rfl).trans counts⟩
    rw [offered, after, before, List.length_append, List.length_singleton]
    dsimp only
    split
    · next full =>
      have more : es.length + 1 + 1 - s.settings.batchSize.value =
        es.length + 1 - s.settings.batchSize.value + 1 := by omega
      rw [more, Function.iterate_succ_apply']
    · next short =>
      have none : es.length + 1 + 1 - s.settings.batchSize.value =
        es.length + 1 - s.settings.batchSize.value := by omega
      rw [none]

/-- An open publisher has nothing to do, and its collector accepts everything. -/
structure AtRest (s : State) : Prop where
  /-- The publisher is enabled. -/
  on : s.enabled = true
  /-- Nobody has shut it down. -/
  opened : s.closed = false
  /-- Nothing is queued. -/
  empty : s.queue = []
  /-- No notification is under way. -/
  unwoken : s.wake.Quiet
  /-- Every batch is accepted at once. -/
  accepts : s.Accepts
  /-- No call is under way. -/
  uncalled : s.Uncalled

/-- A burst leaves one notification for a loop that was not waiting. -/
private theorem notify_free (count : Nat) :
    Signal.notify^[count] {} = { stored := decide (0 < count) } := by
  induction count with
  | zero => rfl
  | succ count ih =>
    rw [Function.iterate_succ_apply', ih]
    rfl

/-- A waiting loop takes the first notification of a burst, and one more is stored. -/
private theorem notify_waiting (me : ActivityId) (count : Nat) :
    Signal.notify^[count + 1] { waiting := [me] } =
      { stored := decide (0 < count), called := [me] } := by
  induction count with
  | zero => rfl
  | succ count ih =>
    rw [Function.iterate_succ_apply', ih]
    rfl

/-- The turn is free where nobody has asked for it. -/
private theorem turn_free (line : InLine s.books.posts s.books.turn)
    (idle : ∀ i a, s.activity? i = some a → a.cycle? = none) : s.turn = {} := by
  have nobody : s.turn.line = [] := by
    refine List.eq_nil_iff_forall_not_mem.mpr fun i hi => (line.mem i).mp hi ?_
    rw [cycleAt, getElem?_posts]
    cases ha : s.activity? i with
    | none => exact .none
    | some a =>
      have none : a.post.cycle = none := idle i a ha
      rw [Option.map_some, Option.bind_some, none]
      exact .none
  obtain ⟨holder, waiting⟩ := List.append_eq_nil_iff.mp nobody
  cases ht : s.turn with
  | mk h w =>
    rw [ht] at holder waiting
    cases h with
    | none => rw [show w = [] from waiting]
    | some i => contradiction

/-- The loop begins in a stopped publisher. -/
private theorem start_stopped (on : s.enabled = true) (opened : s.closed = false)
    (stopped : s.phase = .stopped) :
    ∃ worker history, (s.start true).1 = { s with
      phase := .running
      worker := worker
      activities := s.activities ++ [.loop .created false]
      history := history } ∧
      drained history = drained s.history ∧ tallies history = tallies s.history := by
  have accepts : ¬ (!s.enabled) = true := by
    rw [on]
    decide
  have remains : ¬ s.closed = true := by
    rw [opened]
    decide
  have moved : s.move? .start =
      some { s.report (.moved s.phase .running .start) with phase := .running } := by
    rw [move?, stopped]
    rfl
  rw [start, if_neg accepts, if_neg remains, if_neg (by decide)]
  simp only [stopped, moved]
  exact ⟨_, _, rfl, (reading_skip rfl).trans ((reading_skip rfl).trans (reading_skip rfl)),
    (reading_skip rfl).trans ((reading_skip rfl).trans (reading_skip rfl))⟩

namespace AtRest

/-- A loop that is started after the burst finds one notification, if there is a full batch. -/
private theorem serves_started (rest : s.AtRest) (vigilant : s.Vigilant)
    (sound : s.lifecycle.Sound) (line : InLine s.books.posts s.books.turn)
    (stopped : s.phase = .stopped) (fits : es.length ≤ s.settings.maxQueueSize.value) :
    (s.run (es.map .offer ++ [.start true])).now = s.now ∧
      Serves s (s.run (es.map .offer ++ [.start true])) s.activities.length
        (s.now + s.settings.flushInterval) es .absent .created [] := by
  have wake : s.wake = {} := by
    obtain ⟨⟨waiting, _⟩, _⟩ := vigilant.before stopped rest.opened
    obtain ⟨stored, called⟩ := rest.unwoken
    cases hw : s.wake with
    | mk w c d =>
      rw [hw] at waiting stored called
      rw [show w = false from stored, show c = [] from waiting, show d = [] from called]
  have ended : ∀ i a, s.activity? i = some a → ∃ c, a = .ended c := by
    intro i a ha
    rcases rest.uncalled i a ha with loop | ended
    · exact absurd stopped (sound.loops (loop ▸ part_of_activity ha)).1
    · exact ended
  have turn : s.turn = {} := by
    refine turn_free line fun i a ha => ?_
    obtain ⟨c, rfl⟩ := ended i a ha
    rfl
  obtain ⟨stats, history, before, drains, counts⟩ :=
    run_offers rest.on rest.opened rest.empty fits
  have started : s.run (es.map .offer ++ [.start true]) =
      ((s.run (es.map .offer)).start true).1 := by
    rw [run_append]
    rfl
  obtain ⟨worker, history', begun, drains', counts'⟩ := start_stopped
    (s := s.run (es.map .offer)) (by rw [before]; exact rest.on) (by rw [before]; exact rest.opened)
    (by rw [before]; exact stopped)
  rw [before] at begun drains' counts'
  rw [started, before, begun]
  have notified : Signal.notify^[es.length + 1 - s.settings.batchSize.value] s.wake =
      { stored := decide (s.settings.batchSize.value ≤ es.length) } := by
    rw [wake, notify_free]
    congr 1
    exact decide_eq_decide.mpr (by omega)
  refine ⟨rfl, {
    stage := List.getElem?_concat_length
    others := fun i a hi ha => by
      rcases getElem?_of_append ha with ⟨here, _⟩ | old
      · exact absurd here hi
      · exact ended i a old
    stands := .created notified trivial
    turn := turn
    due := Nat.le_refl _
    on := rest.on
    opened := rest.opened
    up := vigilant.shut.symm.trans rest.opened
    running := rfl
    settings := rfl
    quiet := vigilant.quiet (vigilant.shut.symm.trans rest.opened)
    accepts := rest.accepts
    drained := (drains'.trans drains).trans (List.append_nil _).symm
    delivered := (counts'.trans counts).trans (List.append_nil _).symm
    order := rfl
    sizes := fun x hx => by contradiction }⟩

/-- A loop that waits is registered for a notification and has none. -/
private theorem wake_of_waits (rest : s.AtRest) (vigilant : s.Vigilant) {tick : Nat}
    (parked : s.activity? me = some (.loop (.parked tick) false)) (waits : s.step? me = none) :
    s.wake = { waiting := [me] } ∧ me ∈ s.shutdownSignal.waiting := by
  have both : me ∈ s.wake.waiting ∧ me ∈ s.shutdownSignal.waiting := by
    rw [step?, parked] at waits
    simp only [Loop.step?] at waits
    split at waits
    · contradiction
    · contradiction
    · contradiction
    · split at waits
      · next both => simpa using both
      · contradiction
  refine ⟨?_, both.2⟩
  have sole := (vigilant.loop parked (vigilant.shut.symm.trans rest.opened)).2.1
  obtain ⟨stored, called⟩ := rest.unwoken
  cases sole with
  | absent free =>
    rw [free.1] at both
    exact absurd both.1 List.not_mem_nil
  | waits waiting called =>
    cases hw : s.wake with
    | mk w c d =>
      rw [hw] at waiting stored called
      rw [show w = false from stored, show c = [me] from waiting, show d = [] from called]
  | woken waiting =>
    rw [waiting] at both
    exact absurd both.1 List.not_mem_nil

/-- Beside a loop that waits everything has ended, and nobody holds the turn. -/
private theorem alone_of_parked (rest : s.AtRest) (sound : s.lifecycle.Sound)
    (line : InLine s.books.posts s.books.turn) {tick : Nat}
    (parked : s.activity? me = some (.loop (.parked tick) false)) :
    (∀ i a, i ≠ me → s.activity? i = some a → ∃ c, a = .ended c) ∧ s.turn = {} ∧
      s.phase = .running := by
  have others : ∀ i a, i ≠ me → s.activity? i = some a → ∃ c, a = .ended c := by
    intro i a hi ha
    rcases rest.uncalled i a ha with loop | ended
    · obtain ⟨l, c, rfl⟩ : ∃ l c, a = .loop l c := by
        cases a with
        | loop l c => exact ⟨l, c, rfl⟩
        | shutdown d => cases d <;> contradiction
        | _ => contradiction
      exact absurd (loop_unique sound rest.opened ha parked) hi
    · exact ended
  have turn : s.turn = {} := by
    refine turn_free line fun i a ha => ?_
    by_cases hi : i = me
    · subst hi
      rw [parked] at ha
      cases ha
      rfl
    · obtain ⟨c, rfl⟩ := others i a hi ha
      rfl
  have running : s.phase = .running := by
    have loop := part_of_activity parked
    cases hp : s.phase with
    | stopped => exact absurd hp (sound.loops loop).1
    | running => rfl
    | stopping => cases rest.opened.symm.trans (sound.closing hp)
  exact ⟨others, turn, running⟩

/-- A burst gives a waiting loop its first notification, and the second one is stored. -/
private theorem serves_parked (rest : s.AtRest) (vigilant : s.Vigilant)
    (sound : s.lifecycle.Sound) (line : InLine s.books.posts s.books.turn) {tick : Nat}
    (parked : s.activity? me = some (.loop (.parked tick) false)) (waits : s.step? me = none)
    (fits : es.length ≤ s.settings.maxQueueSize.value) :
    ∃ g, (g = .absent ↔ es.length ≤ s.settings.batchSize.value) ∧
      (s.run (es.map .offer)).now = s.now ∧
      Serves s (s.run (es.map .offer)) me tick es g (.parked tick) [] := by
  obtain ⟨wake, listens⟩ := rest.wake_of_waits vigilant parked waits
  obtain ⟨others, turn, running⟩ := rest.alone_of_parked sound line parked
  obtain ⟨stats, history, before, drains, counts⟩ :=
    run_offers rest.on rest.opened rest.empty fits
  rw [before]
  have serves (g : Surplus) (stands : State.Stands { s with
      queue := es
      stats := stats
      wake := Signal.notify^[es.length + 1 - s.settings.batchSize.value] s.wake
      history := history } me g (.parked tick)) (absent : g ≠ .taken) :
      Serves s { s with
        queue := es
        stats := stats
        wake := Signal.notify^[es.length + 1 - s.settings.batchSize.value] s.wake
        history := history } me tick es g (.parked tick) [] := {
    stage := parked
    others := others
    stands := stands
    turn := turn
    due := Nat.le_refl _
    on := rest.on
    opened := rest.opened
    up := vigilant.shut.symm.trans rest.opened
    running := running
    settings := rfl
    quiet := vigilant.quiet (vigilant.shut.symm.trans rest.opened)
    accepts := rest.accepts
    drained := drains.trans (List.append_nil _).symm
    delivered := counts.trans (List.append_nil _).symm
    order := rfl
    sizes := by
      cases g with
      | taken => exact absurd rfl absent
      | _ => exact fun x hx => by contradiction }
  rcases Nat.lt_or_ge es.length s.settings.batchSize.value with short | full
  · have none : es.length + 1 - s.settings.batchSize.value = 0 := Nat.sub_eq_zero_of_le short
    refine ⟨.absent, iff_of_true rfl (Nat.le_of_lt short), rfl, serves .absent (.waits ?_ listens
      (Nat.not_le_of_lt short) (by decide) trivial) (by decide)⟩
    rw [none, wake]
    rfl
  · obtain ⟨count, hc⟩ := Nat.exists_eq_add_of_le full
    have more : es.length + 1 - s.settings.batchSize.value = count + 1 := by omega
    have notified : Signal.notify^[es.length + 1 - s.settings.batchSize.value] s.wake =
        { stored := decide (0 < count), called := [me] } := by
      rw [more, wake, notify_waiting]
    cases count with
    | zero =>
      exact ⟨.absent, iff_of_true rfl (Nat.le_of_eq hc), rfl,
        serves .absent (.called notified full (by decide)) (by decide)⟩
    | succ count =>
      refine ⟨.kept, iff_of_false (by decide) (by omega), rfl,
        serves .kept (.called ?_ full (by decide)) (by decide)⟩
      exact notified

end AtRest

/-- A second notification does no harm if nothing is left for it. -/
theorem Serves.shipsWhole_of_dvd (h : Serves s t me limit es g l settled)
    (even : s.settings.batchSize.value ∣ es.length) : s.ShipsWhole t es := by
  refine ⟨settled ++ l.cargo, h.drained, h.order, ?_⟩
  have sizes := h.sizes
  cases g with
  | taken =>
    obtain ⟨full, rest, whole, short, ⟨taken, _⟩ | ⟨some, taken, gone⟩⟩ := sizes
    · rw [taken, ← h.settings]
      exact whole
    · have order := h.order
      rw [taken, gone, List.append_nil, List.flatten_append, List.flatten_singleton] at order
      obtain ⟨_, left⟩ := count_whole whole short order
      rw [h.settings, Nat.mod_eq_zero_of_dvd even] at left
      exact absurd (List.eq_nil_of_length_eq_zero left) some
  | _ =>
    rw [← h.settings]
    exact sizes

/-- The loop takes whole batches only, and all of them before it waits. -/
def WholeOnly (s t : State) (me : ActivityId) (es : List Event) : Prop :=
  s.ShipsWhole t es ∧ (t.step? me = none → s.ShippedWhole t es) ∧ s.ShippedWhole (t.poll me) es

/-- The loop takes all batches before it waits, the last and smaller one included. -/
def RestToo (s t : State) (me : ActivityId) (es : List Event) : Prop :=
  (t.step? me = none → s.ShippedAll t es) ∧ s.ShippedAll (t.poll me) es

private theorem Serves.wholeOnly (h : Serves s t me limit es .absent l settled)
    (early : t.now < limit) : s.WholeOnly t me es := by
  obtain ⟨g', l', settled', now, rests, origin, h'⟩ := h.poll early
  obtain rfl := origin.mpr rfl
  exact ⟨h.shipsWhole, h.shippedWhole early, h'.shippedWhole (now ▸ early) rests⟩

private theorem Serves.wholeOnly_of_dvd (h : Serves s t me limit es g l settled)
    (early : t.now < limit) (even : s.settings.batchSize.value ∣ es.length) :
    s.WholeOnly t me es := by
  by_cases hg : g = .absent
  · subst hg
    exact h.wholeOnly early
  · obtain ⟨g', l', settled', now, rests, origin, h'⟩ := h.poll early
    exact ⟨h.shipsWhole_of_dvd even, fun done => (h.shippedRest early done hg).1 even,
      (h'.shippedRest (now ▸ early) rests (fun he => hg (origin.mp he))).1 even⟩

private theorem Serves.restToo (h : Serves s t me limit es g l settled) (early : t.now < limit)
    (second : g ≠ .absent) (uneven : ¬ s.settings.batchSize.value ∣ es.length) :
    s.RestToo t me es := by
  obtain ⟨g', l', settled', now, rests, origin, h'⟩ := h.poll early
  exact ⟨fun done => (h.shippedRest early done second).2 uneven,
    (h'.shippedRest (now ▸ early) rests (fun he => second (origin.mp he))).2 uneven⟩

end State

/-- A burst of events is offered to a publisher at rest, and before the next tick nobody offers
anything else, flushes or shuts the publisher down. If the loop is started after the burst, it ships
the whole batches and leaves what is less than a batch. So does a loop that was waiting, unless the
burst is larger than a batch and no multiple of it: then it ships what is left as well. -/
theorem burst_is_shipped {s₀ : State} (made : Made s₀) (actions : List Action) {s : State}
    (reached : s₀.run actions = s) (rest : s.AtRest) {es : List Event}
    (fits : es.length ≤ s.settings.maxQueueSize.value) :
    (s.phase = .stopped → ∀ during, (∀ a ∈ during, Action.Calm a) →
      elapsed during < s.settings.flushInterval →
        s.WholeOnly (s.run (es.map .offer ++ .start true :: during)) s.activities.length es) ∧
    (∀ me tick, s.activity? me = some (.loop (.parked tick) false) → s.step? me = none →
      ∀ during, (∀ a ∈ during, Action.Calm a) → s.now + elapsed during < tick →
        (es.length ≤ s.settings.batchSize.value ∨ s.settings.batchSize.value ∣ es.length →
          s.WholeOnly (s.run (es.map .offer ++ during)) me es) ∧
        (s.settings.batchSize.value < es.length → ¬ s.settings.batchSize.value ∣ es.length →
          s.RestToo (s.run (es.map .offer ++ during)) me es)) := by
  have vigilant : s.Vigilant := reached ▸ made.vigilant actions
  have sound : s.lifecycle.Sound := reached ▸ made.sound actions
  have line : InLine s.books.posts s.books.turn := reached ▸ made.inLine actions
  refine ⟨fun stopped during calm early => ?_, fun me tick parked waits during calm early => ?_⟩
  · obtain ⟨now, begun⟩ := rest.serves_started vigilant sound line stopped fits
    obtain ⟨g, l, settled, later, origin, h⟩ := begun.run calm (by rw [now]; omega)
    obtain rfl := origin.mpr rfl
    have joined : s.run (es.map .offer ++ .start true :: during) =
        (s.run (es.map .offer ++ [.start true])).run during := by
      rw [← State.run_append, List.append_assoc]
      rfl
    rw [joined]
    exact h.wholeOnly (by omega)
  · obtain ⟨g, size, now, begun⟩ := rest.serves_parked vigilant sound line parked waits fits
    obtain ⟨g', l, settled, later, origin, h⟩ := begun.run calm (by rw [now]; exact early)
    have early' : ((s.run (es.map .offer)).run during).now < tick := by omega
    rw [State.run_append]
    refine ⟨fun even => ?_, fun more uneven => ?_⟩
    · rcases even with fits | even
      · obtain rfl := origin.mpr (size.mpr fits)
        exact h.wholeOnly early'
      · exact h.wholeOnly_of_dvd early' even
    · refine h.restToo early' (fun he => ?_) uneven
      exact Nat.not_lt_of_le (size.mp (origin.mp he)) more

/-- The loop is started and waits. -/
def startAndWait : List Action := [.start true, .poll 0]

/-- Three numbered events. -/
def three : List Event := [numbered 0, numbered 1, numbered 2]

private theorem atRest_small : (small []).AtRest where
  on := rfl
  opened := rfl
  empty := rfl
  unwoken := ⟨rfl, rfl⟩
  accepts := ⟨_, rfl, rfl, fun r hr => by contradiction⟩
  uncalled i a ha := by contradiction

private theorem atRest_waiting : ((small []).run startAndWait).AtRest where
  on := rfl
  opened := rfl
  empty := rfl
  unwoken := ⟨rfl, rfl⟩
  accepts := ⟨_, rfl, rfl, fun r hr => by contradiction⟩
  uncalled i a ha := by
    cases i with
    | zero =>
      cases ha
      exact .inl rfl
    | succ i => contradiction

/-- A burst of three events, one more than a batch, is shipped up to the third event if the loop is
started after it, and as a whole if the loop was waiting. -/
theorem bursts_of_three_are_shipped :
    Made (small []) ∧ (small []).AtRest ∧ ((small []).run startAndWait).AtRest ∧
    (small []).WholeOnly ((small []).run (three.map .offer ++ .start true :: [])) 0 three ∧
    ((small []).run startAndWait).RestToo
      (((small []).run startAndWait).run (three.map .offer ++ [])) 0 three := by
  have begun := burst_is_shipped (made_small []) [] rfl atRest_small
    (by decide : three.length ≤ 3)
  have waited := burst_is_shipped (made_small []) startAndWait rfl atRest_waiting
    (by decide : three.length ≤ 3)
  exact ⟨made_small [], atRest_small, atRest_waiting,
    begun.1 rfl [] (fun _ h => by contradiction) (by decide),
    (waited.2 0 2000 rfl rfl [] (fun _ h => by contradiction) (by decide)).2 (by decide)
      (by decide)⟩

/-- A loop that waits does not keep the rest of a burst until its tick. -/
theorem waiting_loop_ships_rest_at_once :
    ((small []).run startAndWait).activity? 0 = some (.loop (.parked 2000) false) ∧
    ((small []).run startAndWait).step? 0 = none ∧
    ((small []).run (startAndWait ++ three.map .offer ++ [.poll 0])).now < 2000 ∧
    drained ((small []).run (startAndWait ++ three.map .offer ++ [.poll 0])).history =
      [[numbered 0, numbered 1], [numbered 2]] ∧
    ¬ ((small []).run startAndWait).ShippedWhole
      ((small []).run (startAndWait ++ three.map .offer ++ [.poll 0])) three := by
  refine ⟨rfl, rfl, by decide, rfl, ?_⟩
  rintro ⟨batches, _, _, _, left⟩
  exact absurd left (by decide)

end EventRelay.Publisher
