import EventRelay.Proofs.Collector.Requests
import EventRelay.Proofs.Publisher.Run
import EventRelay.Publisher.Completion

/-!
# The token stays secret

Whatever a publisher does, it does without regard to the token: to run it with another token is to
run it and to put the other token in afterwards. Two tokens can therefore not be told apart by
anything that is logged, delivered, counted or answered. They show in the settings themselves and in
the authorization of a request, and nowhere else.
-/

namespace EventRelay.Publisher

/-- The same publisher with a token in its settings. -/
def State.withToken (s : State) (token : String) : State :=
  { s with settings := s.settings.withToken token }

/-- The same step with a token in the settings of the state that it leads to. -/
def CycleStep.withToken (token : String) : CycleStep → CycleStep
  | .waits => .waits
  | .goes s c => .goes (s.withToken token) c
  | .ends s o => .ends (s.withToken token) o
  | .breaks s => .breaks (s.withToken token)

variable (token : String)

/-! ## Steps -/

-- Each function reads fields of the state that the token does not change, so that both sides make
-- the same choice; the choice is brought to one form and the branches are the same.

namespace State

theorem nextResponse_withToken (s : State) :
    (s.withToken token).nextResponse = (s.nextResponse.1, s.nextResponse.2.withToken token) := by
  have same : (s.withToken token).transport = s.transport := rfl
  rw [nextResponse, nextResponse, same]
  cases s.transport <;> rfl

theorem hand_withToken (s : State) (me : ActivityId) (batch : Envelope) (second : Bool) :
    (s.withToken token).hand me batch second =
      ((s.hand me batch second).1.withToken token, (s.hand me batch second).2) := by
  simp only [hand, nextResponse_withToken]
  rfl

theorem drain_withToken (s : State) (me : ActivityId) :
    (s.withToken token).drain me = ((s.drain me).1.withToken token, (s.drain me).2) := rfl

theorem toss_withToken (s : State) :
    (s.withToken token).toss = (s.toss.1, s.toss.2.withToken token) := by
  have same : (s.withToken token).tosses = s.tosses := rfl
  rw [toss, toss, same]
  cases s.tosses <;> rfl

theorem move?_withToken (s : State) (t : Transition) :
    (s.withToken token).move? t = (s.move? t).map (·.withToken token) := by
  have same : (s.withToken token).phase = s.phase := rfl
  rw [move?, move?, same]
  cases s.phase.next? t <;> rfl

theorem cancelLoop_withToken (s : State) (loop : ActivityId) :
    (s.withToken token).cancelLoop loop = (s.cancelLoop loop).withToken token := by
  have same : (s.withToken token).activity? loop = s.activity? loop := rfl
  rw [cancelLoop, cancelLoop, same]
  split <;> rfl

end State

namespace Cycle

/-- A flush cycle makes its steps without regard to the token. -/
theorem step_withToken (c : Cycle) (s : State) (me : ActivityId) (retry : Bool) :
    c.step (s.withToken token) me retry = (c.step s me retry).withToken token := by
  cases c with
  | arriving => rfl
  | waiting =>
    rw [step, step, apply_ite (CycleStep.withToken token)]
    rfl
  | admitted =>
    have same : ((s.drain me).1.withToken token).transport = (s.drain me).1.transport := rfl
    simp only [step, State.drain_withToken, State.hand_withToken]
    rw [apply_ite (CycleStep.withToken token), same]
    cases (s.drain me).1.transport <;> rfl
  | attempting batch second begun response =>
    have same : response.resultAfter ((s.withToken token).now - begun)
        (s.withToken token).settings.deliveryTimeout =
        response.resultAfter (s.now - begun) s.settings.deliveryTimeout := rfl
    rw [step, step, same]
    cases response.resultAfter (s.now - begun) s.settings.deliveryTimeout with
    | none => rfl
    | some result =>
      cases result with
      | failure e => cases retry <;> cases second <;> rfl
      | _ => rfl
  | pausing batch resume =>
    simp only [step, State.hand_withToken]
    rw [apply_ite (CycleStep.withToken token)]
    rfl

theorem cancel_withToken (c : Cycle) (s : State) (me : ActivityId) :
    c.cancel (s.withToken token) me = (c.cancel s me).withToken token := by
  cases c <;> rfl

end Cycle

namespace Loop

/-- The loop makes its steps without regard to the token. -/
theorem step?_withToken (l : Loop) (s : State) (me : ActivityId) :
    l.step? (s.withToken token) me = (l.step? s me).map (·.withToken token) := by
  cases l with
  | created => rfl
  | resting tick =>
    rw [step?, step?, apply_ite (Option.map _)]
    rfl
  | parked tick =>
    have same : (s.withToken token).branchReady me tick = s.branchReady me tick := by
      funext b
      cases b <;> rfl
    simp only [step?, State.toss_withToken]
    rw [same]
    cases (Branch.order s.toss.1).find? (s.branchReady me tick) with
    | none =>
      dsimp only
      rw [apply_ite (Option.map _)]
      rfl
    | some b => cases b <;> rfl
  | draining tick =>
    rw [step?, step?, apply_ite (Option.map _)]
    rfl
  | flushing tick c =>
    have same : c.step (s.withToken token) me (s.withToken token).settings.retryOnce =
        (c.step s me s.settings.retryOnce).withToken token := c.step_withToken token s me _
    rw [step?, step?, same]
    cases c.step s me s.settings.retryOnce with
    | ends t o =>
      dsimp only [CycleStep.withToken]
      rw [apply_ite (Option.map _)]
      rfl
    | _ => rfl

theorem cancel_withToken (l : Loop) (s : State) (me : ActivityId) :
    l.cancel (s.withToken token) me = (l.cancel s me).withToken token := by
  cases l with
  | flushing tick c => exact c.cancel_withToken token s me
  | _ => rfl

end Loop

namespace Shutdown

/-- A shutdown makes its steps without regard to the token. -/
theorem step?_withToken (d : Shutdown) (s : State) (me : ActivityId) :
    d.step? (s.withToken token) me = (d.step? s me).map (·.withToken token) := by
  cases d with
  | called =>
    simp only [step?, State.move?_withToken]
    cases s.move? .stop with
    | none => rfl
    | some moved =>
      have same : (moved.withToken token).worker = moved.worker := rfl
      simp only [Option.map_some, same]
      cases moved.worker <;> rfl
  | joining loop deadline =>
    have cancelled : ((s.withToken token).report
        (.loopOverdue (s.withToken token).settings.shutdownTimeout)).cancelLoop loop =
        ((s.report (.loopOverdue s.settings.shutdownTimeout)).cancelLoop loop).withToken token :=
      State.cancelLoop_withToken token (s.report (.loopOverdue s.settings.shutdownTimeout)) loop
    simp only [step?, cancelled]
    rw [apply_ite (Option.map _), apply_ite (Option.map _)]
    rfl
  | cancelling loop =>
    rw [step?, step?, apply_ite (Option.map _)]
    rfl
  | flushing c sent lost =>
    rw [step?, step?, c.step_withToken]
    cases c.step s me false with
    | ends t o =>
      cases o with
      | empty =>
        simp only [CycleStep.withToken, State.move?_withToken]
        cases t.move? .finish <;> rfl
      | _ => rfl
    | _ => rfl

theorem cancel_withToken (d : Shutdown) (s : State) (me : ActivityId) :
    d.cancel (s.withToken token) me = (d.cancel s me).withToken token := by
  cases d with
  | flushing c sent lost => exact c.cancel_withToken token s me
  | _ => rfl

end Shutdown

/-! ## Runs -/

namespace State

/-- Activities make their steps without regard to the token. -/
theorem step?_withToken (s : State) (me : ActivityId) :
    (s.withToken token).step? me = (s.step? me).map (·.withToken token) := by
  have same : (s.withToken token).activity? me = s.activity? me := rfl
  rw [step?, step?, same]
  cases s.activity? me with
  | none => rfl
  | some a =>
    cases a with
    | loop l cancelled =>
      cases cancelled with
      | true =>
        simp only [l.cancel_withToken]
        rfl
      | false => exact l.step?_withToken token s me
    | flush c =>
      have inner : c.step (s.withToken token) me (s.withToken token).settings.retryOnce =
          (c.step s me s.settings.retryOnce).withToken token := c.step_withToken token s me _
      simp only [inner]
      cases c.step s me s.settings.retryOnce <;> rfl
    | shutdown d => exact d.step?_withToken token s me
    | ended c => rfl

theorem advance_withToken (me : ActivityId) (fuel : Nat) (s : State) :
    (s.withToken token).advance me fuel = (s.advance me fuel).withToken token := by
  induction fuel generalizing s with
  | zero => rfl
  | succ fuel ih =>
    rw [advance, advance, step?_withToken]
    cases s.step? me with
    | none => rfl
    | some t => exact ih t

theorem cancel_withToken (s : State) (me : ActivityId) :
    (s.withToken token).cancel me = (s.cancel me).withToken token := by
  have same : (s.withToken token).activity? me = s.activity? me := rfl
  rw [cancel, cancel, same]
  cases s.activity? me with
  | none => rfl
  | some a =>
    cases a with
    | loop l cancelled =>
      simp only [l.cancel_withToken]
      rfl
    | flush c =>
      simp only [c.cancel_withToken]
      rfl
    | shutdown d =>
      simp only [d.cancel_withToken]
      rfl
    | ended c => rfl

/-- An offer is answered without regard to the token. -/
theorem offer_withToken (s : State) (e : Event) :
    (s.withToken token).offer e = ((s.offer e).1.withToken token, (s.offer e).2) := by
  change _ = Prod.map (·.withToken token) id (s.offer e)
  rw [offer, offer, apply_ite (Prod.map _ _), apply_ite (Prod.map _ _)]
  by_cases full : s.settings.batchSize.value ≤ (s.queue ++ [e]).length
  · have full' : (s.withToken token).settings.batchSize.value ≤
        ((s.withToken token).queue ++ [e]).length := full
    simp only [if_pos full, if_pos full']
    rfl
  · have part' : ¬(s.withToken token).settings.batchSize.value ≤
        ((s.withToken token).queue ++ [e]).length := full
    simp only [if_neg full, if_neg part']
    rfl

/-- A start is answered without regard to the token. -/
theorem start_withToken (s : State) (runtime : Bool) :
    (s.withToken token).start runtime =
      ((s.start runtime).1.withToken token, (s.start runtime).2) := by
  have same : (s.withToken token).phase = s.phase := rfl
  change _ = Prod.map (·.withToken token) id (s.start runtime)
  rw [start, start, apply_ite (Prod.map _ _), apply_ite (Prod.map _ _), apply_ite (Prod.map _ _),
    same, move?_withToken]
  cases s.phase with
  | stopped => cases s.move? .start <;> rfl
  | running => rfl
  | stopping => rfl

/-- Every action is done without regard to the token. -/
theorem apply_withToken (s : State) (a : Action) :
    (s.withToken token).apply a = (s.apply a).withToken token := by
  cases a with
  | offer e => exact congrArg Prod.fst (s.offer_withToken token e)
  | start runtime => exact congrArg Prod.fst (s.start_withToken token runtime)
  | flush => rfl
  | shutdown => rfl
  | step i =>
    simp only [apply, step?_withToken]
    cases s.step? i <;> rfl
  | poll i => exact advance_withToken token i s.fuel s
  | cancel i =>
    have same : (s.withToken token).activity? i = s.activity? i := rfl
    simp only [apply, same, cancel_withToken]
    split <;> rfl
  | elapse millis => rfl

/-- Every run is made without regard to the token. -/
theorem run_withToken (s : State) (actions : List Action) :
    (s.withToken token).run actions = (s.run actions).withToken token := by
  induction actions generalizing s with
  | nil => rfl
  | cons a rest ih => rw [run_cons, run_cons, apply_withToken, ih]

end State

/-! ## Construction -/

theorem create_withToken (settings : Settings) (transport : Transport) (tosses : List Branch) :
    create (settings.withToken token) transport tosses =
      (create settings transport tosses).map (·.withToken token) := by
  have same : (settings.withToken token).validate = settings.validate := rfl
  rw [create, create, same]
  cases settings.validate <;> rfl

/-- Over a way that does not look at the collector, construction does not look at the token. -/
theorem ofSettings_withToken (settings : Settings) (transport : Transport) (tosses : List Branch) :
    ofSettings (settings.withToken token) (fun _ => transport) tosses =
      (ofSettings settings (fun _ => transport) tosses).map (·.withToken token) := by
  have same : (settings.withToken token).validate = settings.validate := rfl
  have switch : (settings.withToken token).enabled = settings.enabled := rfl
  rw [ofSettings, ofSettings, same, switch, Collector.ofSettings_withToken]
  cases settings.validate with
  | error e => rfl
  | ok _ =>
    cases settings.enabled with
    | false => rfl
    | true => cases Collector.ofSettings settings <;> rfl

/-- What is made without regard to the token is the same with two tokens but for the token. -/
private theorem two_tokens {ε α : Type} {make : String → Except ε α} {put : α → String → α}
    {plain : Except ε α} (unseen : ∀ token, make token = plain.map (put · token))
    (covers : ∀ x a b, put (put x a) b = put x b) (a b : String) :
    make b = (make a).map (put · b) := by
  rw [unseen a, unseen b]
  cases plain with
  | error e => rfl
  | ok x => exact congrArg Except.ok (covers x a b).symm

/-- For any two tokens that are not blank. With the one or the other in the variables, the same is
logged, loading fails with the same error, and the settings differ in the token alone. With the one
or the other in the settings, the settings and the collector look the same in logs, the check and
the construction of collectors and publishers fail with the same errors, and what is made differs in
the token alone; a request of the collector has nothing of the token but its authorization. After every
run of a publisher over the same answers nothing but the token of its settings differs: not what it
looks like in logs, not its reports and deliveries, not its counters, its queue, its phase and the
ends of its activities, and not the answers to offers and starts. -/
theorem token_shows_only_in_authorization {a b : String} (left : Text.trim a ≠ "")
    (right : Text.trim b ≠ "") :
    (∀ lookup : Settings.Lookup,
      Settings.loadLog (lookup.withToken b) = Settings.loadLog (lookup.withToken a) ∧
      Settings.load (lookup.withToken b) =
        (Settings.load (lookup.withToken a)).map (·.withToken (Text.trim b))) ∧
    (∀ settings : Settings,
      (settings.withToken b).debug = (settings.withToken a).debug ∧
      (settings.withToken b).validate = (settings.withToken a).validate ∧
      Collector.ofSettings (settings.withToken b) =
        (Collector.ofSettings (settings.withToken a)).map (·.withToken b) ∧
      ∀ script tosses,
        create (settings.withToken b) script tosses =
          (create (settings.withToken a) script tosses).map (·.withToken b) ∧
        ofSettings (settings.withToken b) (fun _ => script) tosses =
          (ofSettings (settings.withToken a) (fun _ => script) tosses).map (·.withToken b)) ∧
    (∀ c : Collector, (c.withToken b).debug = (c.withToken a).debug ∧ ∀ batch token,
      (c.withToken token).post batch = (Collector.authorization token).map (c.request batch)) ∧
    ∀ (p : State) (actions : List Action),
      let one := (p.withToken a).run actions
      let other := (p.withToken b).run actions
      other = one.withToken b ∧ other.debug = one.debug ∧
      other.notices.map Notice.line = one.notices.map Notice.line ∧
      other.handed.map Envelope.body = one.handed.map Envelope.body ∧
      other.history = one.history ∧ other.stats = one.stats ∧ other.queue = one.queue ∧
      other.phase = one.phase ∧ other.activities = one.activities ∧
      (∀ e, (other.offer e).2 = (one.offer e).2) ∧
      ∀ runtime, (other.start runtime).2 = (one.start runtime).2 := by
  refine ⟨fun lookup => ⟨Settings.loadLog_withToken lookup right left, ?_⟩,
    fun settings => ⟨rfl, rfl, ?_, fun script tosses => ⟨?_, ?_⟩⟩,
    fun c => ⟨rfl, fun batch token => c.post_withToken token batch⟩, fun p actions => ?_⟩
  · rw [Settings.load_withToken lookup left, Settings.load_withToken lookup right]
    cases Settings.load lookup <;> rfl
  · exact two_tokens (Collector.ofSettings_withToken settings) (fun _ _ _ => rfl) a b
  · exact two_tokens (create_withToken · settings script tosses) (fun _ _ _ => rfl) a b
  · exact two_tokens (ofSettings_withToken · settings script tosses) (fun _ _ _ => rfl) a b
  · intro one other
    have swapped : other = one.withToken b := by
      change (p.withToken b).run actions = ((p.withToken a).run actions).withToken b
      rw [p.run_withToken, p.run_withToken]
      rfl
    rw [swapped]
    refine ⟨rfl, rfl, rfl, rfl, rfl, rfl, rfl, rfl, rfl, fun e => ?_, fun runtime => ?_⟩
    · rw [one.offer_withToken]
    · rw [one.start_withToken]

/-- Variables of a relay that a token is added to. -/
def plainVariables : Settings.Lookup := fun key =>
  if key = Settings.collectorUrlKey then some "https://collector" else none

/-- A publisher that delivers a batch, with one of two tokens; the second one could not even be
sent. -/
theorem swapped_token_is_not_seen :
    let deliver := offers 2 ++ [.flush, .poll 0]
    Text.trim " first " ≠ "" ∧ Text.trim "se\ncond" ≠ "" ∧
      Settings.loadLog (plainVariables.withToken "se\ncond") =
        Settings.loadLog (plainVariables.withToken " first ") ∧
      (Settings.loadLog (plainVariables.withToken "se\ncond")).length = 1 ∧
      (((small []).withToken " first ").run deliver).stats.eventsDelivered = 2 ∧
      (((small []).withToken "se\ncond").run deliver).history =
        (((small []).withToken " first ").run deliver).history := by
  intro deliver
  have left : Text.trim " first " ≠ "" := by decide +kernel
  have right : Text.trim "se\ncond" ≠ "" := by decide +kernel
  obtain ⟨loads, -, -, runs⟩ := token_shows_only_in_authorization left right
  obtain ⟨-, -, -, -, history, -⟩ := runs (small []) deliver
  exact ⟨left, right, (loads plainVariables).1, by decide +kernel, by decide +kernel, history⟩

end EventRelay.Publisher
