import EventRelay.Proofs.Publisher.Flights

/-!
# Waiting for the loop

A shutdown that finds a loop waits for it, and tells it to end at its limit. While it waits somebody
can go on, or the loop is in a flush cycle with a batch and both wait for a time to come; so time
passes only with a batch in flight, and no further than to the limit. When the shutdown has the
queue to itself, the loop has counted what it carried, and it has taken nothing since.
-/

namespace EventRelay.Publisher

/-- Where the loop stands while a shutdown waits for it; `cut` says that it was told to end. -/
inductive Standing (b : State) (me loop : ActivityId) (held : List Settlement) (cut : Bool)
    (t : State) : Activity → Prop
  /-- It is in a flush cycle. -/
  | flying {tick : Nat} {c : Cycle} (uncounted : held = []) (flying : Flying b me loop t c) :
    Standing b me loop held cut t (.loop (.flushing tick c) cut)
  /-- It is in none. -/
  | calm {l : Loop} (heeds : l.Heeds t loop) (landed : Landed b me held t) :
    Standing b me loop held cut t (.loop l cut)
  /-- It has ended. -/
  | gone {c : Closing} (landed : Landed b me held t) : Standing b me loop held cut t (.ended c)

/-- A shutdown that began in `b` waits for the loop. -/
structure Awaits (b : State) (me loop : ActivityId) (held : List Settlement) (cut : Bool)
    (t : State) : Prop where
  /-- The publisher winds down. -/
  winding : t.Winding me
  /-- What has happened to batches is the doing of the loop. -/
  record : Record b me held t
  /-- The shutdown waits. -/
  mine : t.activity? me =
    some (.shutdown (if cut then .cancelling loop else .joining loop b.patience))
  /-- It has not waited longer than its limit. -/
  early : t.now ≤ b.patience
  /-- The loop was told to end at the limit. -/
  late : cut = true → t.now = b.patience
  /-- The loop. -/
  loop : ∃ a, t.activity? loop = some a ∧ Standing b me loop held cut t a

/-- A shutdown that began in `b` has the queue to itself. -/
structure Arrived (b : State) (me : ActivityId) (held : List Settlement) (t : State) : Prop where
  /-- The publisher winds down. -/
  winding : t.Winding me
  /-- What has happened to batches was not its doing. -/
  record : Record b me held t
  /-- What was carried is counted. -/
  landed : Landed b me held t
  /-- It has not waited longer than its limit. -/
  early : t.now ≤ b.patience
  /-- It is about to flush. -/
  mine : t.activity? me = some (.shutdown (.flushing .arriving 0 0))

namespace Awaits

open State

variable {b t u : State} {me loop i : ActivityId} {held held' : List Settlement} {cut : Bool}
  {a : Activity}

/-- The shutdown is not the loop. -/
private theorem other (h : Awaits b me loop held cut t) : loop ≠ me := by
  rintro rfl
  obtain ⟨a, ha, standing⟩ := h.loop
  cases h.mine.symm.trans ha
  cases standing

/-- No other loop lives. -/
theorem only (h : Awaits b me loop held cut t) {l : Loop} {c : Bool}
    (ha : t.activity? i = some (.loop l c)) : i = loop := by
  have entry : t.lifecycle.parts[me]? = some (.stopping (some loop)) := by
    rw [part_of_activity h.mine]
    cases cut <;> rfl
  exact (Option.some.inj ((h.winding.reached.sound.awaited entry).2 i (part_of_activity ha))).symm

/-- The loop is the only one to ask for the turn. -/
private theorem turn (h : Awaits b me loop held cut t) {tick : Nat} {c : Cycle}
    (ha : t.activity? loop = some (.loop (.flushing tick c) cut)) :
    t.turn = if c = .arriving then {} else ⟨some loop, []⟩ := by
  refine h.winding.reached.turn_of_sole ha rfl fun j b hj hb => ?_
  rcases h.winding.others hb with rfl | aloof | ⟨l, c, rfl⟩
  · obtain rfl := Option.some.inj (h.mine.symm.trans hb)
    cases cut <;> rfl
  · exact aloof.cycle
  · exact absurd (h.only hb) hj

/-- The loop goes on or ends. -/
private theorem enter (h : Awaits b me loop held cut t) (reached : u.Reached)
    (activities : u.activities = t.activities.set loop a)
    (flags : u.closed = t.closed ∧ u.shutdown = t.shutdown ∧ u.phase = t.phase ∧ u.now = t.now)
    (record : Record b me held' u) (standing : Standing b me loop held' cut u a) :
    Awaits b me loop held' cut u := by
  obtain ⟨closed, shutdown, phase, now⟩ := flags
  obtain ⟨before, ha, _⟩ := h.loop
  exact {
    winding := {
      reached := reached
      closed := closed.trans h.winding.closed
      shutdown := shutdown.trans h.winding.shutdown
      stopping := phase.trans h.winding.stopping
      others := fun {i x} hx => by
        rw [activity?, activities] at hx
        rcases getElem?_of_set hx with ⟨_, rfl⟩ | ⟨_, hx⟩
        · cases standing with
          | flying => exact .inr (.inr ⟨_, _, rfl⟩)
          | calm => exact .inr (.inr ⟨_, _, rfl⟩)
          | gone => exact .inr (.inl (.ended _))
        · exact h.winding.others hx }
    record := record
    mine := by
      rw [activity?, activities, List.getElem?_set_ne h.other]
      exact h.mine
    early := now.symm ▸ h.early
    late := now.symm ▸ h.late
    loop := ⟨a, by rw [activity?, activities]; exact getElem?_set_of_some ha a, standing⟩ }

/-- What others do leaves a shutdown waiting. -/
theorem beside (h : Awaits b me loop held cut t) (reached : u.Reached) (beside : t.Beside u) :
    Awaits b me loop held cut u where
  winding := h.winding.beside reached beside
  record := h.record.unmoved beside.toUnmoved
  mine := (beside.busy fun aloof => by cases cut <;> cases aloof).mpr h.mine
  early := beside.now.symm ▸ h.early
  late := beside.now.symm ▸ h.late
  loop := by
    obtain ⟨a, ha, standing⟩ := h.loop
    cases standing with
    | flying uncounted flying =>
      refine ⟨_, (beside.busy fun aloof => by cases aloof).mpr ha, .flying uncounted ?_⟩
      exact flying.unmoved beside.toUnmoved
    | calm heeds landed =>
      refine ⟨_, (beside.busy fun aloof => by cases aloof).mpr ha, .calm ⟨heeds.calm, ?_⟩ ?_⟩
      · rw [beside.signal]
        exact heeds.ready
      · exact landed.unmoved beside.toUnmoved
    | gone landed => exact ⟨_, beside.ended ha, .gone (landed.unmoved beside.toUnmoved)⟩

private theorem unmoved_cancel {l : Loop} (calm : ∀ tick c, l ≠ .flushing tick c) (t : State)
    (i : ActivityId) : t.Unmoved (l.cancel t i) ∧ (l.cancel t i).activities = t.activities := by
  cases l with
  | flushing tick c => exact absurd rfl (calm tick c)
  | _ => exact ⟨⟨rfl, rfl, rfl, rfl, rfl, rfl, rfl, rfl⟩, rfl⟩

/-- How many steps the loop may still make. -/
def drive (loop : ActivityId) (t : State) : Nat := ((t.activity? loop).map Activity.drive).getD 0

private theorem drive_of_activity (ha : t.activity? loop = some a) : drive loop t = a.drive := by
  rw [drive, ha]
  rfl

/-- A loop that was told to end does so, and its batch is counted as dropped. -/
private theorem loop_cut (h : Awaits b me loop held true t) {l : Loop}
    (ha : t.activity? loop = some (.loop l true)) (standing : Standing b me loop held true t
      (.loop l true)) (reached : ((l.cancel t loop).close loop .cancelled).Reached) :
    ∃ held', Awaits b me loop held' true ((l.cancel t loop).close loop .cancelled) ∧
      drive loop ((l.cancel t loop).close loop .cancelled) < (Activity.loop l true).drive := by
  have less : drive loop ((l.cancel t loop).close loop .cancelled) <
      (Activity.loop l true).drive := by
    have ended : ((l.cancel t loop).close loop .cancelled).activity? loop =
        some (.ended .cancelled) := by
      have same : (l.cancel t loop).activities = t.activities := (t.spares_cancel_loop l loop).1
      rw [activity?, close, setActivity, same]
      exact getElem?_set_of_some ha _
    rw [drive_of_activity ended]
    exact Nat.zero_lt_one
  cases standing with
  | @flying tick c uncounted flying =>
    subst uncounted
    obtain ⟨held', record, landed⟩ := flying.cut h.record (h.late rfl)
    have apart : t.Apart (c.cancel t loop) := c.apart_cancel t loop
    have closes : (c.cancel t loop).Unmoved ((c.cancel t loop).close loop .cancelled) :=
      (Unmoved.refl _).put loop _
    exact ⟨held', h.enter reached (congrArg (List.set · loop _) apart.alike.activities)
      ⟨apart.alike.closed, apart.alike.shutdown, apart.alike.phase, (c.leaves_cancel t loop).now⟩
      (record.unmoved closes) (.gone (landed.unmoved closes)), less⟩
  | calm heeds landed =>
    obtain ⟨unmoved, activities⟩ := unmoved_cancel heeds.calm t loop
    have closes := unmoved.put loop (.ended .cancelled)
    exact ⟨held, h.enter reached (congrArg (List.set · loop _) activities)
      ⟨closes.closed, closes.shutdown, closes.phase, closes.now⟩ (h.record.unmoved closes)
      (.gone (landed.unmoved closes)), less⟩

/-- A loop in a flush cycle goes on with it, or has counted its batch. -/
private theorem loop_flying (h : Awaits b me loop [] false t) {tick : Nat} {c : Cycle}
    (ha : t.activity? loop = some (.loop (.flushing tick c) false)) (flying : Flying b me loop t c)
    (step : (Loop.flushing tick c).Steps t loop u) (reached : u.Reached) :
    ∃ held' a, Awaits b me loop held' false u ∧ u.activity? loop = some a ∧
      a.drive < c.drive + 3 := by
  have free : c = .arriving → t.turn.holder = none := by
    intro arriving
    rw [h.turn ha, if_pos arriving]
  have goes {v : State} {held' : List Settlement} (apart : t.Apart v) (now : v.now = t.now)
      (record : Record b me held' v) (l' : Loop)
      (standing : Standing b me loop held' false (v.setLoop loop l') (.loop l' false))
      (reached : (v.setLoop loop l').Reached) :
      Awaits b me loop held' false (v.setLoop loop l') ∧
        (v.setLoop loop l').activity? loop = some (.loop l' false) := by
    have activities : (v.setLoop loop l').activities = t.activities.set loop (.loop l' false) :=
      congrArg (List.set · loop _) apart.alike.activities
    refine ⟨h.enter reached activities ⟨apart.alike.closed, apart.alike.shutdown,
      apart.alike.phase, now⟩ (record.unmoved ((Unmoved.refl v).put loop _)) standing, ?_⟩
    rw [activity?, activities]
    exact getElem?_set_of_some ha _
  have rests {v : State} {o : Outcome} (hc : c.step t loop t.settings.retryOnce = .ends v o)
      (l' : Loop) (calm : ∀ tick c, l' ≠ .flushing tick c) (up : ∀ tick, l' ≠ .parked tick)
      (less : l'.drive ≤ 3) (reached : (v.setLoop loop l').Reached) :
      ∃ held' a, Awaits b me loop held' false (v.setLoop loop l') ∧
        (v.setLoop loop l').activity? loop = some a ∧ a.drive < c.drive + 3 := by
    obtain ⟨held', record, landed⟩ := flying.ends h.record hc
    obtain ⟨awaits, here⟩ := goes (Cycle.apart_of_step hc : t.Apart v)
      (Cycle.leaves_of_step hc : t.Leaves loop v).now record l'
      (.calm ⟨calm, fun tick he => absurd he (up tick)⟩
        (landed.unmoved ((Unmoved.refl v).put loop _))) reached
    exact ⟨held', _, awaits, here,
      Nat.lt_of_le_of_lt less (Nat.lt_add_of_pos_left c.drive_pos)⟩
  cases step with
  | @goes _ _ c' v hc =>
    obtain ⟨record, flying', less⟩ := flying.goes h.record h.other free hc
    obtain ⟨awaits, here⟩ := goes (Cycle.apart_of_step hc : t.Apart v)
      (Cycle.leaves_of_step hc : t.Leaves loop v).now record (.flushing tick c')
      (.flying rfl (flying'.unmoved ((Unmoved.refl v).put loop _))) reached
    exact ⟨[], _, awaits, here, Nat.add_lt_add_right less 3⟩
  | done hc short =>
    exact rests hc (.resting tick) (fun _ _ => Loop.noConfusion) (fun _ => Loop.noConfusion)
      (Nat.le_succ 2) reached
  | more hc long =>
    exact rests hc (.draining tick) (fun _ _ => Loop.noConfusion) (fun _ => Loop.noConfusion)
      (Nat.le_refl 3) reached
  | breaks hc => exact absurd hc flying.not_breaks

/-- A step of the loop leaves a shutdown waiting, and the loop has less to do. -/
theorem loop_step (h : Awaits b me loop held cut t) (hs : t.step? loop = some u)
    (reached : u.Reached) :
    ∃ held', Awaits b me loop held' cut u ∧ drive loop u < drive loop t := by
  obtain ⟨a, ha, standing⟩ := h.loop
  rw [drive_of_activity ha]
  have told {l : Loop} (he : a = .loop l cut) (hc : cut = true) :
      ∃ held', Awaits b me loop held' cut u ∧ drive loop u < a.drive := by
    subst he hc
    rw [step?, ha] at hs
    obtain rfl := Option.some.inj hs
    exact h.loop_cut ha standing reached
  cases standing with
  | @flying tick c uncounted flying =>
    cases cut with
    | true => exact told rfl rfl
    | false =>
      subst uncounted
      rw [step?, ha] at hs
      obtain ⟨held', a', awaits, here, less⟩ :=
        h.loop_flying ha flying (Loop.steps_of_step hs) reached
      refine ⟨held', awaits, ?_⟩
      rw [drive_of_activity here]
      exact less
  | @calm l heeds landed =>
    cases cut with
    | true => exact told rfl rfl
    | false =>
      rw [step?, ha] at hs
      obtain ⟨unmoved, a', activities, next⟩ :=
        heeds.step h.winding.shutdown (Loop.steps_of_step hs)
      have here : u.activity? loop = some a' := by
        rw [activity?, activities]
        exact getElem?_set_of_some ha a'
      have standing' : Standing b me loop held false u a' := by
        rcases next with rfl | ⟨l', rfl, _, heeds'⟩
        · exact .gone (landed.unmoved unmoved)
        · exact .calm (heeds' u) (landed.unmoved unmoved)
      refine ⟨held, h.enter reached activities
        ⟨unmoved.closed, unmoved.shutdown, unmoved.phase, unmoved.now⟩
        (h.record.unmoved unmoved) standing', ?_⟩
      rw [drive_of_activity here]
      rcases next with rfl | ⟨l', rfl, less, _⟩
      · exact l.drive_pos
      · exact less
  | gone landed =>
    rw [step?, ha] at hs
    contradiction

/-- With the loop gone the shutdown has the queue to itself. -/
private theorem arrive (h : Awaits b me loop held cut t) (gone : t.isEnded loop = true)
    (reached : (t.setShutdown me (.flushing .arriving 0 0)).Reached) :
    Arrived b me held (t.setShutdown me (.flushing .arriving 0 0)) := by
  have unmoved := (Unmoved.refl t).put me (.shutdown (.flushing .arriving 0 0))
  obtain ⟨a, ha, standing⟩ := h.loop
  have landed : Landed b me held t := by
    rw [isEnded, ha] at gone
    cases standing with
    | flying => contradiction
    | calm => contradiction
    | gone landed => exact landed
  exact {
    winding := {
      reached := reached
      closed := h.winding.closed
      shutdown := h.winding.shutdown
      stopping := h.winding.stopping
      others := fun {i x} hx => by
        rcases getElem?_of_set hx with ⟨hi, _⟩ | ⟨_, hx⟩
        · exact .inl hi
        · exact h.winding.others hx }
    record := h.record.unmoved unmoved
    landed := landed.unmoved unmoved
    early := h.early
    mine := getElem?_set_of_some h.mine _ }

/-- At the limit the shutdown tells the loop to end. -/
private theorem overdue (h : Awaits b me loop held false t) (alive : t.isEnded loop = false)
    (late : b.patience ≤ t.now)
    (reached : (((t.report (.loopOverdue t.settings.shutdownTimeout)).cancelLoop
      loop).setShutdown me (.cancelling loop)).Reached) :
    Awaits b me loop held true (((t.report (.loopOverdue t.settings.shutdownTimeout)).cancelLoop
      loop).setShutdown me (.cancelling loop)) ∧
      drive loop (((t.report (.loopOverdue t.settings.shutdownTimeout)).cancelLoop
        loop).setShutdown me (.cancelling loop)) ≤ drive loop t := by
  obtain ⟨a, ha, standing⟩ := h.loop
  let told := t.report (.loopOverdue t.settings.shutdownTimeout)
  obtain ⟨l, rfl⟩ : ∃ l, a = .loop l false := by
    cases standing with
    | flying => exact ⟨_, rfl⟩
    | calm => exact ⟨_, rfl⟩
    | gone =>
      rw [isEnded, ha] at alive
      contradiction
  have asked : told.cancelLoop loop = told.setActivity loop (.loop l true) := by
    rw [cancelLoop, show told.activity? loop = _ from ha]
  change Awaits b me loop held true ((told.cancelLoop loop).setShutdown me _) ∧ _
  change ((told.cancelLoop loop).setShutdown me _).Reached at reached
  change _ ∧ drive loop ((told.cancelLoop loop).setShutdown me _) ≤ _
  rw [asked] at reached ⊢
  have unmoved : t.Unmoved ((told.setActivity loop (.loop l true)).setShutdown me
      (.cancelling loop)) := ((t.unmoved_report rfl).put loop _).put me _
  have here : ((told.setActivity loop (.loop l true)).setShutdown me
      (.cancelling loop)).activity? loop = some (.loop l true) :=
    (List.getElem?_set_ne (Ne.symm h.other)).trans (getElem?_set_of_some ha _)
  refine ⟨{
    winding := {
      reached := reached
      closed := h.winding.closed
      shutdown := h.winding.shutdown
      stopping := h.winding.stopping
      others := fun {i x} hx => by
        rcases getElem?_of_set hx with ⟨hi, _⟩ | ⟨_, hx⟩
        · exact .inl hi
        · rcases getElem?_of_set hx with ⟨_, rfl⟩ | ⟨_, hx⟩
          · exact .inr (.inr ⟨l, true, rfl⟩)
          · exact h.winding.others hx }
    record := h.record.unmoved unmoved
    mine := by
      refine getElem?_set_of_some (x := .shutdown (.joining loop b.patience)) ?_ _
      exact (List.getElem?_set_ne h.other).trans h.mine
    early := h.early
    late := fun _ => Nat.le_antisymm h.early late
    loop := ⟨_, here, ?_⟩ }, ?_⟩
  · cases standing with
    | flying uncounted flying => exact .flying uncounted (flying.unmoved unmoved)
    | calm heeds landed => exact .calm ⟨heeds.calm, heeds.ready⟩ (landed.unmoved unmoved)
  · rw [drive_of_activity here, drive_of_activity ha]
    exact l.drive_pos

/-- A step of the shutdown tells the loop to end, or the shutdown has the queue to itself. -/
theorem mine_step (h : Awaits b me loop held cut t) (hs : t.step? me = some u)
    (reached : u.Reached) :
    (cut = false ∧ Awaits b me loop held true u ∧ u.now = t.now ∧ drive loop u ≤ drive loop t) ∨
      Arrived b me held u := by
  have mine := h.mine
  rw [step?, mine] at hs
  have step := Shutdown.steps_of_step hs
  cases cut with
  | true =>
    cases step with
    | joinLate gone => exact .inr (h.arrive gone reached)
  | false =>
    cases step with
    | join gone => exact .inr (h.arrive gone reached)
    | overdue alive late =>
      obtain ⟨awaits, less⟩ := h.overdue alive late reached
      have now : t.Unmoved (t.report (.loopOverdue t.settings.shutdownTimeout)) :=
        t.unmoved_report rfl
      refine .inl ⟨rfl, awaits, awaits.late rfl |>.trans (Nat.le_antisymm late h.early), less⟩

/-- If neither the shutdown nor the loop can go on, the loop is in a flush cycle with a batch, and
both wait for a time to come. -/
private theorem idle (h : Awaits b me loop held cut t) (mine : t.step? me = none)
    (theirs : t.step? loop = none) : cut = false ∧ t.now < b.patience ∧
      ∃ tick c limit, t.activity? loop = some (.loop (.flushing tick c) false) ∧ held = [] ∧
        Flying b me loop t c ∧ c.batch? ≠ none ∧ t.deadline loop = some limit ∧ t.now < limit := by
  obtain ⟨a, ha, standing⟩ := h.loop
  have lives : ∃ l, a = .loop l cut := by
    cases standing with
    | flying => exact ⟨_, rfl⟩
    | calm => exact ⟨_, rfl⟩
    | gone =>
      have ended : t.isEnded loop = true := by rw [isEnded, ha]
      rw [step?, h.mine] at mine
      cases cut <;> simp [Shutdown.step?, ended] at mine
  obtain ⟨l, rfl⟩ := lives
  have uncut : cut = false := by
    cases cut with
    | false => rfl
    | true =>
      rw [step?, ha] at theirs
      contradiction
  subst uncut
  have early : t.now < b.patience := by
    have alive : t.isEnded loop = false := by rw [isEnded, ha]
    by_contra late
    rw [step?, h.mine] at mine
    simp [Shutdown.step?, alive, Nat.le_of_not_lt late] at mine
  refine ⟨rfl, early, ?_⟩
  rw [step?, ha] at theirs
  cases standing with
  | calm heeds landed =>
    obtain ⟨u, hu⟩ := heeds.exists_step
    cases theirs.symm.trans hu
  | @flying tick c uncounted flying =>
    have waits : c.step t loop t.settings.retryOnce = .waits := by
      change Loop.step? t loop (.flushing tick c) = none at theirs
      rw [Loop.step?] at theirs
      split at theirs
      · next hc => exact hc
      · contradiction
      · split at theirs <;> contradiction
      · contradiction
    obtain ⟨carries, limit, due, more⟩ := flying.waits h.record (fun hw => by
      rw [h.turn ha, if_neg (by rw [hw]; exact Cycle.noConfusion)]) waits
    refine ⟨tick, c, limit, ha, uncounted, flying, carries, ?_, more⟩
    rw [State.deadline, ha]
    exact due

/-- Time passes only while both wait, and not beyond the limit. -/
theorem elapse (h : Awaits b me loop held cut t) {millis : Nat}
    (prompt : t.Prompt me (.elapse millis)) (reached : (t.elapse millis).Reached) :
    Awaits b me loop held cut (t.elapse millis) := by
  obtain ⟨mine, limits⟩ := prompt.idle h.mine fun he => by cases cut <;> cases he
  obtain ⟨a, ha, standing⟩ := h.loop
  obtain ⟨theirs, _⟩ := prompt.idle ha fun he => by
    subst he
    cases standing
  obtain ⟨rfl, _, tick, c, _, here, uncounted, flying, carries, _⟩ := h.idle mine theirs
  have limit : t.deadline me = some b.patience := by rw [State.deadline, h.mine]; rfl
  exact {
    winding := ⟨reached, h.winding.closed, h.winding.shutdown, h.winding.stopping,
      h.winding.others⟩
    record := ⟨h.record.settings, h.record.supplied, h.record.queue, h.record.handed,
      h.record.settled⟩
    mine := h.mine
    early := limits _ limit
    late := fun he => by contradiction
    loop := ⟨_, here, .flying uncounted ⟨flying.steady, flying.keeps, fun he => absurd he carries,
      flying.busy⟩⟩ }

end Awaits

/-- A shutdown that has the queue to itself begins its final flush. -/
theorem Arrived.begins {b t : State} {me : ActivityId} {held : List Settlement}
    (h : Arrived b me held t) {tr : Transport} (supplied : t.transport = some tr) :
    OnFinale t tr me 0 .arriving t := .start h.winding h.mine supplied

theorem Arrived.can_end {b t : State} {me : ActivityId} {held : List Settlement}
    (h : Arrived b me held t) : t.CanEnd me := by
  obtain ⟨tr, supplied, steady⟩ := h.record.supplied
  exact (h.begins supplied).can_end steady

/-- A shutdown that waits for the loop can be run to its end: the shutdown and the loop make their
steps, and time passes while both wait. -/
theorem Awaits.can_end {b t : State} {me loop : ActivityId} {held : List Settlement} {cut : Bool}
    (h : Awaits b me loop held cut t) : t.CanEnd me := by
  -- Less time is left, the loop has less to do, or it is told to end.
  induction hn : b.patience - t.now + drive loop t + (!cut).toNat using Nat.strongRecOn
    generalizing held cut t with
  | ind n ih =>
    have under : t.isEnded me = false := by rw [State.isEnded, h.mine]
    cases hm : t.step? me with
    | some u =>
      refine .of_step under hm ?_
      rcases h.mine_step hm (h.winding.reached.acts (.step hm)) with
        ⟨rfl, told, now, less⟩ | arrived
      · refine ih _ ?_ told rfl
        subst hn
        rw [now]
        exact Nat.lt_succ_of_le (Nat.add_le_add_left less _)
      · exact arrived.can_end
    | none =>
      cases hl : t.step? loop with
      | some u =>
        obtain ⟨held', awaits, less⟩ := h.loop_step hl (h.winding.reached.acts (.step hl))
        refine .of_step under hl (ih _ ?_ awaits rfl)
        rw [(State.leaves_of_step hl).now]
        omega
      | none =>
        obtain ⟨rfl, early, tick, c, limit, here, _, _, _, due, later⟩ := h.idle hm hl
        let millis := min b.patience limit - t.now
        have prompt : t.Prompt me (.elapse millis) := by
          refine h.winding.prompt fun i a ha part => ?_
          by_cases hi : i = me
          · subst hi
            refine ⟨hm, fun last hd => ?_⟩
            rw [State.deadline, h.mine] at hd
            obtain rfl := Option.some.inj hd
            change t.now + (min b.patience limit - t.now) ≤ b.patience
            omega
          · obtain ⟨l, c', rfl⟩ := part.resolve_left hi
            obtain rfl := h.only ha
            refine ⟨hl, fun last hd => ?_⟩
            obtain rfl := Option.some.inj (due.symm.trans hd)
            change t.now + (min b.patience limit - t.now) ≤ limit
            omega
        have waited := h.elapse prompt (h.winding.reached.run [.elapse millis])
        refine .of_elapse under prompt (ih _ ?_ waited rfl)
        subst hn
        change b.patience - (t.now + (min b.patience limit - t.now)) + drive loop t + _ < _
        omega

end EventRelay.Publisher
