import EventRelay.Proofs.Publisher.Interruption
import EventRelay.Proofs.Publisher.Undisturbed

/-!
# A publisher that winds down

While a shutdown is in progress nobody has anything to do but the shutdown itself, the loop for
which it waits and flushes that were called. Offers are refused, starts are ignored, and another
shutdown returns at once: none of this concerns the queue, the batches or the clock. So without
flushes it is enough to look at the steps of the shutdown and of the loop, and at the time that
passes. Time passes only while none of them can go on.
-/

namespace EventRelay.Publisher

open Relation

/-- An activity that has ended, or a shutdown that has not begun: it has no part in what is done. -/
inductive Activity.Aloof : Activity → Prop
  /-- It has ended. -/
  | ended (c : Closing) : Aloof (.ended c)
  /-- It has not begun. -/
  | called : Aloof (.shutdown .called)

theorem Activity.Aloof.cycle {a : Activity} (h : a.Aloof) : a.cycle? = none := by
  cases h <;> rfl

namespace State

/-- Nothing happens to the queue, the batches and the clock. -/
structure Unmoved (s t : State) : Prop where
  /-- The settings are the same. -/
  settings : t.settings = s.settings
  /-- No answer is used up. -/
  transport : t.transport = s.transport
  /-- Nothing is taken or queued. -/
  queue : t.queue = s.queue
  /-- No time passes. -/
  now : t.now = s.now
  /-- The phase stays. -/
  phase : t.phase = s.phase
  /-- Nobody closes the publisher. -/
  closed : t.closed = s.closed
  /-- Nobody asks the loop to end. -/
  shutdown : t.shutdown = s.shutdown
  /-- Nothing is delivered, dropped or handed over. -/
  told : deliveries t.history = deliveries s.history

/-- What those do who have no part in the queue. -/
structure Beside (s t : State) : Prop extends Unmoved s t where
  /-- The signal of a shutdown stays. -/
  signal : t.shutdownSignal = s.shutdownSignal
  /-- Whoever has a part goes on with it. -/
  busy : ∀ {i a}, ¬ a.Aloof → (t.activity? i = some a ↔ s.activity? i = some a)
  /-- Whoever has ended stays so. -/
  ended : ∀ {i c}, s.activity? i = some (.ended c) → t.activity? i = some (.ended c)

variable {s t u : State} {me i : ActivityId} {a : Activity}

/-- A reading that only looks at deliveries finds nothing new. -/
theorem Unmoved.reading {α : Type} {read : Observation → Option α} (h : s.Unmoved t)
    (blind : ∀ o, o.delivery? = none → read o = none) :
    Publisher.reading read t.history = Publisher.reading read s.history := by
  rw [reading_deliveries blind, reading_deliveries blind, h.told]

/-- A report that is no delivery moves nothing. -/
theorem unmoved_report (s : State) {n : Notice}
    (plain : (Observation.notice n).delivery? = none) : s.Unmoved (s.report n) :=
  ⟨rfl, rfl, rfl, rfl, rfl, rfl, rfl, reading_skip plain⟩

namespace Beside

/-- What leaves the activities as they are. -/
theorem same (unmoved : s.Unmoved t) (signal : t.shutdownSignal = s.shutdownSignal)
    (activities : t.activities = s.activities) : s.Beside t where
  toUnmoved := unmoved
  signal := signal
  busy := by
    intro i a _
    rw [activity?, activities]
    rfl
  ended := by
    intro i c hi
    rw [activity?, activities]
    exact hi

/-- An activity that has no part is added. -/
theorem add (s : State) (aloof : a.Aloof) : s.Beside (s.addActivity a) where
  toUnmoved := ⟨rfl, rfl, rfl, rfl, rfl, rfl, rfl, rfl⟩
  signal := rfl
  busy := by
    intro i b hb
    refine ⟨fun hi => ?_, fun hi => getElem?_append_of_some hi _⟩
    rcases getElem?_of_append hi with ⟨_, rfl⟩ | hi
    · exact absurd aloof hb
    · exact hi
  ended := fun hi => getElem?_append_of_some hi _

/-- A shutdown that has not begun ends. -/
theorem close (h : s.Beside u) (called : s.activity? i = some (.shutdown .called))
    (activities : u.activities = s.activities) (c : Closing) : s.Beside (u.close i c) where
  toUnmoved := ⟨h.settings, h.transport, h.queue, h.now, h.phase, h.closed, h.shutdown, h.told⟩
  signal := h.signal
  busy := by
    intro j b hb
    change (u.activities.set i (.ended c))[j]? = some b ↔ _
    rw [activities]
    by_cases hj : j = i
    · subst hj
      rw [getElem?_set_of_some called, called]
      refine iff_of_false (fun he => hb ?_) (fun he => hb ?_)
      · rw [← Option.some.inj he]
        exact .ended c
      · rw [← Option.some.inj he]
        exact .called
    · rw [List.getElem?_set_ne (Ne.symm hj)]
      rfl
  ended := by
    intro j c' hj
    change (u.activities.set i (.ended c))[j]? = _
    have other : j ≠ i := by
      rintro rfl
      cases hj.symm.trans called
    rw [activities, List.getElem?_set_ne (Ne.symm other)]
    exact hj

end Beside

/-- A closed publisher refuses an offer, and nothing else happens. -/
theorem beside_offer (closed : s.closed = true) (e : Event) : s.Beside (s.offer e).1 := by
  unfold State.offer
  rw [closed, Bool.or_true, if_pos rfl]
  have told : deliveries (.offered e .rejected :: .notice (.refused e.id) :: s.history) =
      deliveries s.history := (reading_skip rfl).trans (reading_skip rfl)
  exact .same ⟨rfl, rfl, rfl, rfl, rfl, closed.symm, rfl, told⟩ rfl rfl

/-- A closed publisher ignores a start. -/
theorem beside_start (closed : s.closed = true) (runtime : Bool) :
    s.Beside (s.start runtime).1 := by
  unfold State.start
  cases s.enabled with
  | false => exact .same (s.unmoved_report rfl) rfl rfl
  | true =>
    rw [closed]
    exact .same (s.unmoved_report rfl) rfl rfl

/-- Whoever has no part returns at once, if anything. -/
theorem beside_step (aloof : a.Aloof) (ha : s.activity? i = some a)
    (stopping : s.phase = .stopping) (hs : s.step? i = some t) : s.Beside t := by
  cases aloof with
  | ended c =>
    rw [step?, ha] at hs
    contradiction
  | called =>
    obtain rfl := Option.some.inj ((returns_of_called ha stopping).symm.trans hs)
    exact (Beside.same (s.unmoved_report rfl) rfl rfl).close ha rfl _

/-- Cutting off whoever has no part changes nothing else. -/
theorem beside_cancel (aloof : a.Aloof) (ha : s.activity? i = some a) :
    s.Beside (s.cancel i) := by
  have here : s.Beside s := .same ⟨rfl, rfl, rfl, rfl, rfl, rfl, rfl, rfl⟩ rfl rfl
  unfold State.cancel
  rw [ha]
  cases aloof with
  | ended c => exact here
  | called => exact here.close ha rfl _

/-- A shutdown winds the publisher down, and nobody has called a flush. -/
structure Winding (me : ActivityId) (s : State) : Prop where
  /-- The state is reachable. -/
  reached : s.Reached
  /-- Nothing is accepted any more. -/
  closed : s.closed = true
  /-- The loop is asked to end. -/
  shutdown : s.shutdown = true
  /-- The shutdown is not over. -/
  stopping : s.phase = .stopping
  /-- Nobody but the shutdown and the loop has a part. -/
  others : ∀ {i a}, s.activity? i = some a → i = me ∨ a.Aloof ∨ ∃ l c, a = .loop l c

/-- Others do not end the winding down. -/
theorem Winding.beside (h : s.Winding me) (reached : t.Reached) (beside : s.Beside t) :
    t.Winding me where
  reached := reached
  closed := beside.closed.trans h.closed
  shutdown := beside.shutdown.trans h.shutdown
  stopping := beside.phase.trans h.stopping
  others := by
    intro i a ha
    by_cases aloof : a.Aloof
    · exact .inr (.inl aloof)
    · exact h.others ((beside.busy aloof).mp ha)

/-- An action neither calls a flush nor cuts the shutdown off, and time passes only while nobody
who has begun can go on, and not beyond the time at which somebody can. -/
def Prompt (s : State) (me : ActivityId) : Action → Prop
  | .flush => False
  | .cancel i => i ≠ me
  | .elapse millis => ∀ i < s.activities.length, s.activity? i ≠ some (.shutdown .called) →
      s.isReady i = false ∧ ∀ limit ∈ s.deadline i, s.now + millis ≤ limit
  | _ => True

/-- In a run at most up to the end of a shutdown, no flush is called, the shutdown is not cut off,
and whoever can go on does so before time passes. -/
def Punctual (me : ActivityId) (s : State) : List Action → Prop
  | [] => True
  | a :: rest => s.isEnded me = false ∧ s.Prompt me a ∧ (s.apply a).Punctual me rest

instance (s : State) (me : ActivityId) : (a : Action) → Decidable (s.Prompt me a)
  | .cancel i => inferInstanceAs (Decidable (i ≠ me))
  | .elapse millis =>
    inferInstanceAs (Decidable (∀ i < s.activities.length,
      s.activity? i ≠ some (.shutdown .called) →
        s.isReady i = false ∧ ∀ limit ∈ s.deadline i, s.now + millis ≤ limit))
  | .offer _ => .isTrue trivial
  | .start _ => .isTrue trivial
  | .flush => .isFalse id
  | .shutdown => .isTrue trivial
  | .step _ => .isTrue trivial
  | .poll _ => .isTrue trivial

instance decidablePunctual (me : ActivityId) :
    ∀ (s : State) (actions : List Action), Decidable (s.Punctual me actions)
  | _, [] => .isTrue trivial
  | s, a :: rest =>
    have := decidablePunctual me (s.apply a) rest
    inferInstanceAs (Decidable (_ ∧ _ ∧ _))

/-- Whoever can go on does not let time pass. -/
theorem Prompt.idle {millis : Nat} (h : s.Prompt me (.elapse millis))
    (ha : s.activity? i = some a) (begun : a ≠ .shutdown .called) : s.step? i = none ∧
      ∀ limit ∈ s.deadline i, s.now + millis ≤ limit := by
  obtain ⟨hlt, _⟩ := List.getElem?_eq_some_iff.mp ha
  obtain ⟨unready, due⟩ := h i hlt fun hc => begun (Option.some.inj (ha.symm.trans hc))
  exact ⟨Option.isNone_iff_eq_none.mp (Option.isSome_eq_false_iff.mp unready), due⟩

/-- Time may pass while the shutdown and the loop cannot go on. -/
theorem Winding.prompt (h : s.Winding me) {millis : Nat}
    (idle : ∀ i a, s.activity? i = some a → (i = me ∨ ∃ l c, a = .loop l c) →
      s.step? i = none ∧ ∀ limit ∈ s.deadline i, s.now + millis ≤ limit) :
    s.Prompt me (.elapse millis) := by
  intro i hi begun
  have ha : s.activity? i = some s.activities[i] := List.getElem?_eq_getElem hi
  rw [isReady]
  rcases h.others ha with mine | aloof | loop
  · obtain ⟨unready, due⟩ := idle i _ ha (.inl mine)
    exact ⟨by rw [unready]; rfl, due⟩
  · generalize s.activities[i] = b at ha aloof
    cases aloof with
    | ended c =>
      rw [step?, deadline, ha]
      exact ⟨rfl, fun limit hl => by contradiction⟩
    | called => exact absurd ha begun
  · obtain ⟨unready, due⟩ := idle i _ ha (.inr loop)
    exact ⟨by rw [unready]; rfl, due⟩

/-- There is a punctual run in which a shutdown ends. -/
def CanEnd (me : ActivityId) (s : State) : Prop :=
  ∃ more, s.Punctual me more ∧ (s.run more).isEnded me = true

theorem CanEnd.of_ended (ended : s.isEnded me = true) : s.CanEnd me := ⟨[], trivial, ended⟩

/-- Somebody makes a step first. -/
theorem CanEnd.of_step (under : s.isEnded me = false) (hs : s.step? i = some t)
    (h : t.CanEnd me) : s.CanEnd me := by
  obtain ⟨more, punctual, ended⟩ := h
  have step : s.apply (.step i) = t := apply_step hs
  refine ⟨.step i :: more, ⟨under, trivial, step.symm ▸ punctual⟩, ?_⟩
  rw [run_cons, step]
  exact ended

/-- Time passes first. -/
theorem CanEnd.of_elapse {millis : Nat} (under : s.isEnded me = false)
    (prompt : s.Prompt me (.elapse millis)) (h : (s.elapse millis).CanEnd me) : s.CanEnd me := by
  obtain ⟨more, punctual, ended⟩ := h
  exact ⟨.elapse millis :: more, ⟨under, prompt, punctual⟩, ended⟩

/-- What a shutdown keeps while it is under way, and what holds when it is over. -/
structure Keeps (me : ActivityId) (P Q : State → Prop) : Prop where
  /-- It winds the publisher down. -/
  winding : ∀ {s}, P s → s.Winding me
  /-- Others do not matter. -/
  beside : ∀ {s t}, P s → t.Reached → s.Beside t → P t
  /-- The loop goes on. -/
  loop : ∀ {s t i l c}, P s → i ≠ me → s.activity? i = some (.loop l c) → s.step? i = some t →
    t.Reached → P t
  /-- The shutdown goes on or is over. -/
  mine : ∀ {s t}, P s → s.step? me = some t → t.Reached → P t ∨ Q t
  /-- Time passes. -/
  elapse : ∀ {s millis}, P s → s.Prompt me (.elapse millis) → (s.elapse millis).Reached →
    P (s.elapse millis)
  /-- Then the shutdown has ended. -/
  ended : ∀ {s}, Q s → s.isEnded me = true

namespace Keeps

variable {P Q : State → Prop}

/-- A step of somebody else keeps it. -/
theorem other (k : Keeps me P Q) (h : P s) (hi : i ≠ me) (hs : s.step? i = some t) : P t := by
  have winding := k.winding h
  have reached := winding.reached.acts (.step hs)
  cases ha : s.activity? i with
  | none =>
    rw [step?, ha] at hs
    contradiction
  | some a =>
    rcases winding.others ha with mine | aloof | ⟨l, c, rfl⟩
    · exact absurd mine hi
    · exact k.beside h reached (beside_step aloof ha winding.stopping hs)
    · exact k.loop h hi ha hs reached

/-- Somebody else may run until it has to wait. -/
private theorem advance_other (k : Keeps me P Q) (hi : i ≠ me) (fuel : Nat) :
    ∀ {s : State}, P s → P (s.advance i fuel) := by
  induction fuel with
  | zero => exact fun h => h
  | succ fuel ih =>
    intro s h
    rw [State.advance]
    cases hs : s.step? i with
    | none => exact h
    | some t => exact ih (k.other h hi hs)

/-- The shutdown may run until it has to wait. -/
private theorem advance_mine (k : Keeps me P Q) (fuel : Nat) :
    ∀ {s : State}, P s → P (s.advance me fuel) ∨ Q (s.advance me fuel) := by
  induction fuel with
  | zero => exact fun h => .inl h
  | succ fuel ih =>
    intro s h
    cases hs : s.step? me with
    | none =>
      rw [State.advance, hs]
      exact .inl h
    | some t =>
      rw [advance_step hs]
      rcases k.mine h hs ((k.winding h).reached.acts (.step hs)) with under | returned
      · exact ih under
      · have ended := k.ended returned
        unfold isEnded at ended
        split at ended
        · next c hc =>
          rw [advance_ended hc]
          exact .inr returned
        · contradiction

/-- A prompt action keeps it, or with it the shutdown is over. -/
theorem apply (k : Keeps me P Q) (h : P s) {x : Action} (prompt : s.Prompt me x) :
    P (s.apply x) ∨ Q (s.apply x) := by
  have winding := k.winding h
  have reached : (s.apply x).Reached := winding.reached.run [x]
  cases x with
  | offer e => exact .inl (k.beside h reached (beside_offer winding.closed e))
  | start runtime => exact .inl (k.beside h reached (beside_start winding.closed runtime))
  | flush => exact prompt.elim
  | shutdown => exact .inl (k.beside h reached (.add s .called))
  | step i =>
    cases hs : s.step? i with
    | none =>
      rw [State.apply, hs]
      exact .inl h
    | some t =>
      rw [apply_step hs] at reached ⊢
      by_cases hi : i = me
      · subst hi
        exact k.mine h hs reached
      · exact .inl (k.other h hi hs)
  | poll i =>
    by_cases hi : i = me
    · subst hi
      exact k.advance_mine _ h
    · exact .inl (k.advance_other hi _ h)
  | cancel i =>
    cases ha : s.activity? i with
    | none =>
      have same : s.apply (.cancel i) = s := by rw [State.apply, ha, State.cancel, ha]
      exact .inl (same.symm ▸ h)
    | some a =>
      rcases winding.others ha with mine | aloof | ⟨l, c, rfl⟩
      · exact absurd mine prompt
      · have cut : s.apply (.cancel i) = s.cancel i := by
          rw [State.apply, ha]
          cases aloof <;> rfl
        exact .inl (k.beside h reached (cut ▸ beside_cancel aloof ha))
      · have same : s.apply (.cancel i) = s := by rw [State.apply, ha]
        exact .inl (same.symm ▸ h)
  | elapse millis => exact .inl (k.elapse h prompt reached)

/-- A punctual run keeps it, or with it the shutdown is over. -/
theorem run (k : Keeps me P Q) {actions : List Action} :
    ∀ {s : State}, P s → s.Punctual me actions → P (s.run actions) ∨ Q (s.run actions) := by
  induction actions with
  | nil => exact fun h _ => .inl h
  | cons x rest ih =>
    intro s h punctual
    obtain ⟨_, prompt, later⟩ := punctual
    rcases k.apply h prompt with under | returned
    · exact ih under later
    · -- Once the shutdown is over the run is.
      cases rest with
      | nil => exact .inr returned
      | cons y rest =>
        obtain ⟨more, _⟩ := later
        rw [k.ended returned] at more
        contradiction

end Keeps

/-- If only one activity is in a flush cycle, it has the turn, unless it has not asked for it. -/
theorem Reached.turn_of_sole (reached : s.Reached) {c : Cycle} (ha : s.activity? i = some a)
    (hc : a.cycle? = some c) (alone : ∀ j b, j ≠ i → s.activity? j = some b → b.cycle? = none) :
    s.turn = if c = .arriving then {} else ⟨some i, []⟩ := by
  have inLine : InLine s.books.posts s.turn := reached.audited.line
  have outside {j : ActivityId} (hj : j ≠ i) : j ∉ s.turn.line := by
    rw [inLine.mem, cycleAt_posts]
    cases hb : s.activity? j with
    | none => exact not_not_intro .none
    | some b =>
      rw [Option.bind_some, alone j b hj hb]
      exact not_not_intro .none
  have mine : i ∈ s.turn.line ↔ ¬ Idle (some c) := by
    rw [inLine.mem, cycleAt_posts, ha, Option.bind_some, hc]
  split
  · next arriving =>
    subst arriving
    have empty : s.turn.line = [] := by
      refine List.eq_nil_iff_forall_not_mem.mpr fun j hj => ?_
      by_cases hi : j = i
      · subst hi
        exact mine.mp hj .arriving
      · exact outside hi hj
    cases hh : s.turn.holder with
    | none => rw [← inLine.busy hh, ← hh]
    | some j =>
      rw [Turn.line_of_holder hh] at empty
      contradiction
  · next asked =>
    have here : i ∈ s.turn.line := mine.mpr fun idle => by cases idle; exact asked rfl
    cases hh : s.turn.holder with
    | none =>
      rw [Turn.line, hh, inLine.busy hh] at here
      contradiction
    | some j =>
      have line := Turn.line_of_holder hh
      have head : j = i := by
        by_contra hj
        exact outside hj (line ▸ List.mem_cons_self ..)
      subst head
      have last : s.turn.waiting = [] := by
        refine List.eq_nil_iff_forall_not_mem.mpr fun k hk => ?_
        have nodup := inLine.nodup
        rw [line] at nodup
        have other : k ≠ j := by
          rintro rfl
          exact (List.nodup_cons.mp nodup).1 hk
        exact outside other (line ▸ List.mem_cons_of_mem _ hk)
      rw [← hh, ← last]

end State

end EventRelay.Publisher
