import EventRelay.Proofs.Guards.ChatTurns
import EventRelay.Proofs.Relay.Receipts

/-!
# How guard calls end

The outcome of a guard call is decided by four questions in this order: whether its slot is free,
whether the correlation of the scope says what its kind of event needs, whether there is a sink and
every classification is a label, and what the sink answers. The correlation is looked at twice, by
the guard and when the event is built; what satisfies the guard is enough for building.
-/

namespace EventRelay

open Request (Metrics Scope ScopeId)

/-! ## What is demanded of a correlation -/

namespace Correlation

/-- A text that is there and not empty. -/
def Stated (value : Option String) : Prop := ∃ s, value = some s ∧ s ≠ ""

/-- A correlation tells what a kind of event needs. -/
structure Suffices (kind : EventKind) (c : Correlation) : Prop where
  trace : Stated c.trace
  user : Stated c.user
  dept : Stated c.dept
  conversation : kind = .chatTurn → Stated c.conversation
  turn : kind = .chatTurn → ∃ n, c.turn = some n

theorem demand_eq_ok_iff {field : String} {value : Option String} {u : Unit} :
    demand field value = .ok u ↔ Stated value := by
  constructor
  · intro met
    unfold demand at met
    split at met
    · next s =>
      split at met
      · cases met
      · next nonempty => exact ⟨s, rfl, nonempty⟩
    · cases met
  · rintro ⟨s, rfl, nonempty⟩
    rw [demand, if_neg nonempty]

/-- The identity is complete exactly if its three texts are there and not empty. -/
theorem requireIdentity_eq_ok_iff {c : Correlation} {u : Unit} :
    c.requireIdentity = .ok u ↔ Stated c.trace ∧ Stated c.user ∧ Stated c.dept := by
  simp only [requireIdentity, bind_eq_ok_iff, demand_eq_ok_iff]
  constructor
  · rintro ⟨_, trace, _, user, dept⟩
    exact ⟨trace, user, dept⟩
  · rintro ⟨trace, user, dept⟩
    exact ⟨⟨⟩, trace, ⟨⟩, user, dept⟩

/-- A chat turn needs in addition the conversation and the turn, whatever its number. -/
theorem requireTurn_eq_ok_iff {c : Correlation} {u : Unit} :
    c.requireTurn = .ok u ↔ c.Suffices .chatTurn := by
  simp only [requireTurn, bind_eq_ok_iff, demand_eq_ok_iff, requireIdentity_eq_ok_iff]
  constructor
  · rintro ⟨_, ⟨trace, user, dept⟩, _, conversation, made⟩
    cases turn : c.turn with
    | none =>
      rw [turn] at made
      cases made
    | some n => exact ⟨trace, user, dept, fun _ => conversation, fun _ => ⟨n, turn⟩⟩
  · rintro ⟨trace, user, dept, conversation, turn⟩
    obtain ⟨n, turn⟩ := turn rfl
    refine ⟨⟨⟩, ⟨trace, user, dept⟩, ⟨⟩, conversation rfl, ?_⟩
    rw [turn]

end Correlation

namespace Event

/-- The requirement of a kind of event is met exactly if the correlation tells what it needs. -/
theorem requirement_eq_ok_iff {kind : EventKind} {c : Correlation} {u : Unit} :
    requirement kind c = .ok u ↔ c.Suffices kind := by
  have identity (other : kind ≠ .chatTurn) : c.requireIdentity = .ok u ↔ c.Suffices kind := by
    rw [Correlation.requireIdentity_eq_ok_iff]
    constructor
    · rintro ⟨trace, user, dept⟩
      exact ⟨trace, user, dept, fun chat => absurd chat other, fun chat => absurd chat other⟩
    · intro enough
      exact ⟨enough.trace, enough.user, enough.dept⟩
  cases kind with
  | chatTurn => exact Correlation.requireTurn_eq_ok_iff
  | security => exact identity (by decide)
  | feedback => exact identity (by decide)

/-- From a correlation that tells what the payload needs an event is always built. -/
theorem exists_build {c : Correlation} {p : Payload} (enough : c.Suffices p.kind) (id : EventId)
    (time : Instant) : ∃ e, build id time c p = .ok e := by
  obtain ⟨t, trace, -⟩ := enough.trace
  obtain ⟨u, user, -⟩ := enough.user
  obtain ⟨d, dept, -⟩ := enough.dept
  simp only [build, bind_eq_ok_iff, Correlation.present_eq_ok_iff]
  exact ⟨_, ⟨⟩, requirement_eq_ok_iff.mpr enough, t, trace, u, user, d, dept, rfl⟩

/-- Taking the texts of an event refuses nothing that its requirement has not refused before:
building fails where the requirement does, and with its error. -/
theorem build_eq_error_iff {c : Correlation} {p : Payload} {id : EventId} {time : Instant}
    {e : EventError} : build id time c p = .error e ↔ requirement p.kind c = .error e := by
  cases required : requirement p.kind c with
  | error other => simp only [build, required, bind, Except.bind, Except.error.injEq]
  | ok u =>
    obtain ⟨event, built⟩ := exists_build (requirement_eq_ok_iff.mp required) id time
    simp [built]

end Event

/-! ## What a guard decides -/

namespace Guards

/-- Every classification of a call is a label. -/
def Call.Labelled : Call → Prop
  | .chatTurn f => f.Labelled
  | .security blockType rule => Label.Valid blockType ∧ Label.Valid rule
  | .feedback .. => True

/-- A call has a payload exactly if its classifications are labels, whatever was measured. -/
theorem Call.exists_payload_iff {call : Call} {m : Metrics} :
    (∃ p, (call.payload m).1 = .ok p) ↔ call.Labelled := by
  cases call with
  | chatTurn f =>
    exact exists_chatPayload_iff
  | security blockType rule =>
    simp only [payload, securityPayload, bind_eq_ok_iff, Label.ofText_eq_ok_iff]
    constructor
    · rintro ⟨_, blockType, rfl, rule, rfl, _⟩
      exact ⟨blockType.valid, rule.valid⟩
    · rintro ⟨blockType, rule⟩
      exact ⟨_, ⟨_, blockType⟩, rfl, ⟨_, rule⟩, rfl, rfl⟩
  | feedback value conversation turn =>
    constructor
    · intro _
      trivial
    · intro _
      exact ⟨_, rfl⟩

variable {call : Call} {s : Scope} {hasSink : Bool} {id : EventId} {time : Instant}

/-- A free slot is of no use without the correlation that the event needs. -/
theorem judge_incomplete (free : s.claims.holds call.slot = false)
    (lacking : ¬ s.correlation.Suffices call.kind) :
    (judge call (some s) hasSink id time).decision = .over .missingContext := by
  have unclaimed := call.claim_free s.claims
  rw [free] at unclaimed
  obtain ⟨e, refused⟩ := exists_error_of_ne_ok fun u met =>
    lacking (Event.requirement_eq_ok_iff (u := u).mp met)
  simp only [judge, unclaimed, Call.requirement, refused, Bool.not_false, Bool.not_true,
    Bool.false_eq_true, if_false]

/-- Without a sink, or with a classification that is no label, nothing is offered. -/
theorem judge_unbuilt (free : s.claims.holds call.slot = false)
    (enough : s.correlation.Suffices call.kind) (unfit : hasSink = false ∨ ¬ call.Labelled) :
    (judge call (some s) hasSink id time).decision = .over .failed := by
  have unclaimed := call.claim_free s.claims
  rw [free] at unclaimed
  have met : Event.requirement call.kind s.correlation = .ok ⟨⟩ :=
    Event.requirement_eq_ok_iff.mpr enough
  simp only [judge, unclaimed, Call.requirement, met, Bool.not_false, Bool.not_true,
    Bool.false_eq_true, if_false]
  cases hasSink with
  | false => rfl
  | true =>
    have unlabelled : ¬ call.Labelled := unfit.resolve_left (by decide)
    obtain ⟨e, refused⟩ := exists_error_of_ne_ok fun p made =>
      unlabelled (Call.exists_payload_iff.mp ⟨p, made⟩)
    rw [refused]
    rfl

/-- Otherwise an event is built from the payload and the correlation, and it is offered. -/
theorem judge_built (free : s.claims.holds call.slot = false)
    (enough : s.correlation.Suffices call.kind) (labelled : call.Labelled) (id : EventId)
    (time : Instant) :
    ∃ e, (judge call (some s) true id time).decision = .offer e ∧
      (call.payload s.metrics).1 = .ok e.payload ∧ Carries e s.correlation := by
  have unclaimed := call.claim_free s.claims
  rw [free] at unclaimed
  have met : Event.requirement call.kind s.correlation = .ok ⟨⟩ :=
    Event.requirement_eq_ok_iff.mpr enough
  obtain ⟨p, made⟩ := Call.exists_payload_iff (m := s.metrics).mpr labelled
  -- The payload is of the kind of the call, so that building demands what the guard has seen.
  obtain ⟨e, built⟩ := Event.exists_build (Call.kind_of_payload made ▸ enough) id time
  obtain ⟨carries, rfl⟩ := Event.carries_of_build built
  refine ⟨e, ?_, made, carries⟩
  simp only [judge, unclaimed, Call.requirement, met, made, Except.bind, built, Bool.not_false,
    Bool.not_true, Bool.false_eq_true, if_false]

end Guards

namespace Relay

variable {r : Relay} {i : ScopeId} {call : Guards.Call}

/-! ## What becomes of a call -/

@[simp] theorem recorded_observeAll (r : Relay) (os : List Observation) :
    (r.observeAll os).recorded = r.recorded := by
  induction os generalizing r with
  | nil => rfl
  | cons o rest ih => exact ih (r.observe o)

theorem decided_recorded (r : Relay) (scope : Option ScopeId) (call : Guards.Call) :
    (r.decided scope call).recorded = r.recorded := by
  unfold decided
  dsimp only
  split
  · exact recorded_observeAll _ _
  · exact recorded_observeAll _ _

/-- The sink does not see what a guard did before it asks: its answer is the one that it would have
given at once. -/
theorem answer_decided (scope : Option ScopeId) (call : Guards.Call) (serial : Nat) (e : Event) :
    ({ r.decided scope call with serial }.offer e).2 = (r.offer e).2 := by
  have target := r.decided_target scope call
  have publisher := r.decided_publisher scope call
  have recorded := r.decided_recorded scope call
  rw [offer, offer]
  dsimp only
  rw [target, publisher, recorded]
  cases r.target with
  | none => rfl
  | publisher => rfl
  | recorder accepts => rfl

/-- A call that is decided without an event ends so, and asks for nothing. -/
theorem emit_of_decision {scope : Option ScopeId} {outcome : EmitOutcome}
    (h : (r.ruling scope call).decision = .over outcome) :
    (r.emit scope call).2 = outcome ∧ r.asks (.emit scope call) = [] := by
  rw [asks_emit, h, r.emit_over h]
  exact ⟨rfl, rfl⟩

/-- How a guard call in a scope ends, and what it asks the sink for. -/
inductive Ending (r : Relay) (i : ScopeId) (call : Guards.Call) : EmitOutcome → List Event → Prop
  /-- The slot was claimed before. -/
  | claimed (claimed : (r.scopes.get i).claims.holds call.slot = true) : Ending r i call .duplicate []
  /-- The correlation does not tell what the event needs. -/
  | incomplete (free : (r.scopes.get i).claims.holds call.slot = false)
      (lacking : ¬ (r.scopes.get i).correlation.Suffices call.kind) :
      Ending r i call .missingContext []
  /-- There is no sink, or a classification is no label. -/
  | unbuilt (free : (r.scopes.get i).claims.holds call.slot = false)
      (enough : (r.scopes.get i).correlation.Suffices call.kind)
      (unfit : r.target = .none ∨ ¬ call.Labelled) : Ending r i call .failed []
  /-- The sink was asked. -/
  | answered (e : Event) (free : (r.scopes.get i).claims.holds call.slot = false)
      (enough : (r.scopes.get i).correlation.Suffices call.kind) (sink : r.target ≠ .none)
      (labelled : call.Labelled) (payload : (call.payload (r.scopes.get i).metrics).1 = .ok e.payload)
      (carries : Guards.Carries e (r.scopes.get i).correlation) :
      Ending r i call (if (r.offer e).2 then .emitted else .rejected) [e]

/-- A call that has everything asks the sink once, and ends with its answer. -/
theorem ending_of_offer (free : (r.scopes.get i).claims.holds call.slot = false)
    (enough : (r.scopes.get i).correlation.Suffices call.kind) (sink : r.target ≠ .none)
    (labelled : call.Labelled) :
    Ending r i call (r.emit (some i) call).2 (r.asks (.emit (some i) call)) := by
  obtain ⟨e, decided, payload, carries⟩ := Guards.judge_built free enough labelled
    ⟨r.serial⟩ ⟨r.now⟩
  have decided : (r.ruling (some i) call).decision = .offer e := by
    rw [ruling, decide_eq_true sink]
    exact decided
  obtain ⟨t, accepted, offered, emitted⟩ := r.emit_offer decided
  have answer : accepted = (r.offer e).2 :=
    (congrArg Prod.snd offered).symm.trans (answer_decided (some i) call _ e)
  rw [asks_emit, decided, emitted, Guards.conclude_eq, answer]
  exact .answered e free enough sink labelled payload carries

/-- Every guard call ends in one of these ways. -/
theorem ending_of_emit (r : Relay) (i : ScopeId) (call : Guards.Call) :
    Ending r i call (r.emit (some i) call).2 (r.asks (.emit (some i) call)) := by
  cases free : (r.scopes.get i).claims.holds call.slot with
  | true =>
    have decided : (r.ruling (some i) call).decision = .over .duplicate :=
      Guards.judge_duplicate.mpr free
    obtain ⟨outcome, asks⟩ := emit_of_decision decided
    rw [outcome, asks]
    exact .claimed free
  | false =>
    by_cases enough : (r.scopes.get i).correlation.Suffices call.kind
    swap
    · have decided : (r.ruling (some i) call).decision = .over .missingContext :=
        Guards.judge_incomplete free enough
      obtain ⟨outcome, asks⟩ := emit_of_decision decided
      rw [outcome, asks]
      exact .incomplete free enough
    by_cases unfit : r.target = .none ∨ ¬ call.Labelled
    · have decided : (r.ruling (some i) call).decision = .over .failed :=
        Guards.judge_unbuilt free enough (unfit.imp_left fun none => by rw [none]; rfl)
      obtain ⟨outcome, asks⟩ := emit_of_decision decided
      rw [outcome, asks]
      exact .unbuilt free enough unfit
    · obtain ⟨sink, labelled⟩ := not_or.mp unfit
      exact ending_of_offer free enough sink (not_not.mp labelled)

namespace Ending

variable {outcome : EmitOutcome} {asked : List Event}

theorem duplicate_iff (h : Ending r i call outcome asked) :
    outcome = .duplicate ↔ (r.scopes.get i).claims.holds call.slot = true := by
  cases h with
  | claimed claimed => simp [claimed]
  | incomplete free _ => simp [free]
  | unbuilt free _ _ => simp [free]
  | answered e free _ _ _ _ _ => cases (r.offer e).2 <;> simp [free]

theorem missingContext_iff (h : Ending r i call outcome asked) :
    outcome = .missingContext ↔ (r.scopes.get i).claims.holds call.slot = false ∧
      ¬ (r.scopes.get i).correlation.Suffices call.kind := by
  cases h with
  | claimed claimed => simp [claimed]
  | incomplete free lacking => simp [free, lacking]
  | unbuilt _ enough _ => simp [enough]
  | answered e _ enough _ _ _ _ => cases (r.offer e).2 <;> simp [enough]

theorem failed_iff (h : Ending r i call outcome asked) :
    outcome = .failed ↔ (r.scopes.get i).claims.holds call.slot = false ∧
      (r.scopes.get i).correlation.Suffices call.kind ∧
      (r.target = .none ∨ ¬ call.Labelled) := by
  cases h with
  | claimed claimed => simp [claimed]
  | incomplete _ lacking => simp [lacking]
  | unbuilt free enough unfit => simp only [free, enough, unfit, and_self]
  | answered e _ _ sink labelled _ _ => cases (r.offer e).2 <;> simp [sink, labelled]

/-- Whatever ends neither with a success nor with a refusal of the sink has not asked it. -/
theorem asked_eq_nil (h : Ending r i call outcome asked) (success : outcome ≠ .emitted)
    (refusal : outcome ≠ .rejected) : asked = [] := by
  cases h with
  | answered e _ _ _ _ _ _ => cases answer : (r.offer e).2 <;> simp [answer] at success refusal
  | _ => rfl

/-- What is free, complete and well labelled is put to the sink, if there is one. -/
theorem asked_once (h : Ending r i call outcome asked)
    (free : (r.scopes.get i).claims.holds call.slot = false)
    (enough : (r.scopes.get i).correlation.Suffices call.kind) (sink : r.target ≠ .none)
    (labelled : call.Labelled) :
    ∃ e, asked = [e] ∧ (call.payload (r.scopes.get i).metrics).1 = .ok e.payload ∧
      Guards.Carries e (r.scopes.get i).correlation ∧
      outcome = if (r.offer e).2 then .emitted else .rejected := by
  cases h with
  | claimed claimed => exact absurd (claimed.symm.trans free) (by decide)
  | incomplete _ lacking => exact absurd enough lacking
  | unbuilt _ _ unfit => exact absurd unfit (not_or.mpr ⟨sink, not_not.mpr labelled⟩)
  | answered e _ _ _ _ payload carries => exact ⟨e, rfl, payload, carries, rfl⟩

end Ending

/-- A guard call in any scope, over any sink or none, with any arguments. It is a duplicate exactly
if its slot is claimed; else it lacks context exactly if the correlation does not tell what its kind
of event needs; else it fails exactly if there is no sink or a classification is no label; else it
ends as the sink answers. Only then the sink is asked, and once. In every case the slot of the call
is claimed afterwards, and nothing else has changed in any scope. What passes the guard is enough to
build the event. -/
theorem guard_calls_end_as_decided (r : Relay) {i : ScopeId}
    (known : i < r.scopes.states.length) (call : Guards.Call) :
    ((r.emit (some i) call).2 = .duplicate ↔
      (r.scopes.get i).claims.holds call.slot = true) ∧
    ((r.emit (some i) call).2 = .missingContext ↔
      (r.scopes.get i).claims.holds call.slot = false ∧
        ¬ (r.scopes.get i).correlation.Suffices call.kind) ∧
    ((r.emit (some i) call).2 = .failed ↔
      (r.scopes.get i).claims.holds call.slot = false ∧
        (r.scopes.get i).correlation.Suffices call.kind ∧
        (r.target = .none ∨ ¬ call.Labelled)) ∧
    ((r.scopes.get i).claims.holds call.slot = false →
      (r.scopes.get i).correlation.Suffices call.kind → r.target ≠ .none → call.Labelled →
        ∃ e, r.asks (.emit (some i) call) = [e] ∧
          (call.payload (r.scopes.get i).metrics).1 = .ok e.payload ∧
          Guards.Carries e (r.scopes.get i).correlation ∧
          (r.emit (some i) call).2 = if (r.offer e).2 then .emitted else .rejected) ∧
    ((r.emit (some i) call).2 ≠ .emitted → (r.emit (some i) call).2 ≠ .rejected →
      r.asks (.emit (some i) call) = []) ∧
    ((r.scopes.get i).correlation.Suffices call.kind →
      ∀ p, (call.payload (r.scopes.get i).metrics).1 = .ok p →
        ∀ id time, ∃ e, Event.build id time (r.scopes.get i).correlation p = .ok e) ∧
    (∀ slot, ((r.emit (some i) call).1.scopes.get i).claims.holds slot =
      ((r.scopes.get i).claims.holds slot || slot == call.slot)) ∧
    ((r.emit (some i) call).1.scopes.get i).correlation = (r.scopes.get i).correlation ∧
    ((r.emit (some i) call).1.scopes.get i).metrics = (r.scopes.get i).metrics ∧
    ∀ j, j ≠ i → (r.emit (some i) call).1.scopes.get j = r.scopes.get j := by
  have ending := ending_of_emit r i call
  have after : (r.emit (some i) call).1.scopes.get i =
      { r.scopes.get i with claims := (call.claim (r.scopes.get i).claims).1 } := by
    rw [scopes_emit_some]
    exact Request.Scopes.get_put_self _ _ known
  rw [after]
  refine ⟨ending.duplicate_iff, ending.missingContext_iff, ending.failed_iff, ending.asked_once,
    ending.asked_eq_nil, ?_, call.holds_claim _, rfl, rfl, ?_⟩
  · intro enough p made id time
    exact Event.exists_build (Guards.Call.kind_of_payload made ▸ enough) id time
  · intro j other
    rw [scopes_emit_some]
    exact Request.Scopes.get_put_ne _ _ (Ne.symm other)

/-- A recorder that takes no event, and a scope that was told of a visitor. -/
def deaf : Relay :=
  { publisher := Publisher.small [], target := .recorder 0,
    scopes := ⟨[Scope.opened visitor]⟩ }

/-- The feedback of a visitor is put to a recorder that refuses it, a chat turn lacks the
conversation, and a block whose rule is no label fails. -/
theorem three_calls_end_as_decided :
    0 < deaf.scopes.states.length ∧
    (∃ e, deaf.asks (.emit (some 0) (.feedback .like "chat" 1)) = [e] ∧
      Guards.Carries e visitor) ∧
    (deaf.emit (some 0) (.feedback .like "chat" 1)).2 ≠ .missingContext ∧
    (deaf.emit (some 0) (.chatTurn greeting)).2 = .missingContext ∧
    (deaf.emit (some 0) (.security "pii" "")).2 = .failed := by
  have known : 0 < deaf.scopes.states.length := by decide
  have stated {s : String} (nonempty : s ≠ "") : Correlation.Stated (some s) := ⟨s, rfl, nonempty⟩
  have identified {kind : EventKind} (other : kind ≠ .chatTurn) : visitor.Suffices kind :=
    ⟨stated (by decide), stated (by decide), stated (by decide), fun chat => absurd chat other,
      fun chat => absurd chat other⟩
  obtain ⟨_, context, _, once, _⟩ :=
    guard_calls_end_as_decided deaf known (.feedback .like "chat" 1)
  obtain ⟨e, asked, _, carries, _⟩ := once (by decide) (identified (by decide)) (by decide) trivial
  refine ⟨known, ⟨e, asked, carries⟩, ?_, ?_, ?_⟩
  · intro lacking
    exact (context.mp lacking).2 (identified (by decide))
  · refine (guard_calls_end_as_decided deaf known (.chatTurn greeting)).2.1.mpr ⟨by decide, ?_⟩
    intro enough
    obtain ⟨s, ⟨⟩, _⟩ := enough.conversation rfl
  · refine (guard_calls_end_as_decided deaf known (.security "pii" "")).2.2.1.mpr
      ⟨by decide, identified (by decide), .inr ?_⟩
    rintro ⟨_, rule⟩
    exact Label.not_valid_empty rule

end Relay

end EventRelay
