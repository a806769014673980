import EventRelay.Proofs.Publisher.Conservation
import EventRelay.Proofs.Relay.Slots

/-!
# What guards tell and what the publisher takes

A guard call that builds an event offers it to the sink once, and its outcome is the answer to that
offer. So if guards are all that offers anything, the receipts of the calls and the books of the
publisher tell the same story: what was accepted are the events of the calls that returned with
success, in their order, and the counters count the outcomes.
-/

namespace EventRelay

open Request (Scope ScopeId)

namespace Guards

/-- The kind of the payload is the kind that is asked for. -/
theorem Call.kind_of_payload {call : Call} {m : Request.Metrics} {p : Payload}
    (h : (call.payload m).1 = .ok p) : p.kind = call.kind := by
  cases call with
  | chatTurn f =>
    simp only [payload, chatPayload] at h
    cases ht : f.payload m.latency.total (retrieval m.retrieval).1 with
    | error err =>
      rw [ht] at h
      contradiction
    | ok turn =>
      rw [ht] at h
      cases h
      rfl
  | security blockType rule =>
    change securityPayload blockType rule = .ok p at h
    simp only [securityPayload, bind, Except.bind, pure, Except.pure] at h
    split at h
    · contradiction
    · split at h
      · contradiction
      · cases h
        rfl
  | feedback value conversation turn =>
    cases h
    rfl

/-- An event that is built is of the kind that is asked for. -/
theorem kind_of_offer {call : Call} {s : Scope} {hasSink : Bool} {id : EventId} {time : Instant}
    {e : Event} (h : (judge call (some s) hasSink id time).decision = .offer e) :
    e.kind = call.kind := by
  obtain ⟨_, _, p, payload, built⟩ := judge_offer h
  rw [Event.kind, (Event.carries_of_build built).2]
  exact Call.kind_of_payload payload

/-- Without an offer a call returns neither a success nor a refusal. -/
theorem judge_over {call : Call} {scope : Option Scope} {hasSink : Bool} {id : EventId}
    {time : Instant} {o : EmitOutcome} (h : (judge call scope hasSink id time).decision = .over o) :
    o ≠ .emitted ∧ o ≠ .rejected := by
  unfold judge at h
  split at h
  · cases h
    decide
  · dsimp only at h
    split at h
    · cases h
      decide
    · split at h
      · cases h
        decide
      · split at h
        · cases h
          decide
        · split at h
          · cases h
            decide
          · contradiction

/-- The outcome of an offer is the answer to it. -/
theorem conclude_eq (e : Event) (accepted : Bool) :
    (conclude e accepted).1 = if accepted then .emitted else .rejected := by
  cases accepted <;> rfl

end Guards

namespace Relay

/-- What a guard call came to. -/
structure Receipt where
  /-- The scope that it was made in. -/
  scope : Option ScopeId
  /-- The call. -/
  call : Guards.Call
  /-- The event that was built, if there was one. -/
  built : Option Event
  /-- How it ended. -/
  outcome : EmitOutcome
  deriving DecidableEq, Repr

/-- The receipt of an action, if it is a guard call. -/
def receipt? (r : Relay) : Action → Option Receipt
  | .emit scope call =>
    some ⟨scope, call, (r.ruling scope call).decision.event?, (r.emit scope call).2⟩
  | _ => none

/-- The receipts of the guard calls of a run, in order. -/
def receipts (r : Relay) : List Action → List Receipt
  | [] => []
  | a :: rest => (r.receipt? a).toList ++ (r.apply a).receipts rest

/-- What happens to the publisher in an action. -/
def dealing? (r : Relay) : Action → Option Publisher.Action
  | .emit scope call => (r.ruling scope call).decision.event?.map .offer
  | .publisher a => some a
  | _ => none

/-- What happens to the publisher in a run, in order. -/
def dealings (r : Relay) : List Action → List Publisher.Action
  | [] => []
  | a :: rest => (r.dealing? a).toList ++ (r.apply a).dealings rest

variable {r : Relay} {scope : Option ScopeId} {call : Guards.Call} {e : Event} {a : Action}

@[simp] theorem publisher_observeAll (r : Relay) (os : List Observation) :
    (r.observeAll os).publisher = r.publisher := by
  induction os generalizing r with
  | nil => rfl
  | cons o rest ih => exact ih (r.observe o)

theorem decided_publisher (r : Relay) (scope : Option ScopeId) (call : Guards.Call) :
    (r.decided scope call).publisher = r.publisher := by
  unfold decided
  dsimp only
  split <;> exact publisher_observeAll _ _

theorem decided_target (r : Relay) (scope : Option ScopeId) (call : Guards.Call) :
    (r.decided scope call).target = r.target := by
  unfold decided
  dsimp only
  split <;> exact target_observeAll _ _

/-- Guards over a publisher offer their events to it and to nobody else. -/
theorem offer_of_target (target : r.target = .publisher) (e : Event) :
    (r.offer e).1.publisher = (r.publisher.offer e).1 ∧ (r.offer e).1.target = .publisher ∧
      (r.offer e).2 = (r.publisher.offer e).2 := by
  unfold offer
  rw [target]
  exact ⟨rfl, target, rfl⟩

/-- A call with an event is an offer to the publisher, and tells of its answer. -/
theorem emit_of_offer (target : r.target = .publisher)
    (h : (r.ruling scope call).decision = .offer e) :
    (r.emit scope call).1.publisher = (r.publisher.offer e).1 ∧
      (r.emit scope call).1.target = .publisher ∧
      (r.emit scope call).2 = if (r.publisher.offer e).2 then .emitted else .rejected := by
  obtain ⟨t, accepted, offered, emitted⟩ := r.emit_offer h
  have same : (r.decided scope call).publisher = r.publisher := r.decided_publisher scope call
  have decided : (r.decided scope call).target = .publisher :=
    (r.decided_target scope call).trans target
  obtain ⟨publisher, still, answer⟩ := offer_of_target
    (r := { r.decided scope call with serial := (r.decided scope call).serial + 1 }) decided e
  rw [offered] at publisher still answer
  rw [emitted, ← same]
  refine ⟨publisher, still, ?_⟩
  rw [Guards.conclude_eq]
  exact congrArg (fun yes : Bool => if yes then EmitOutcome.emitted else .rejected) answer

/-- A call without an event leaves the publisher as it is, and tells of no answer. -/
theorem emit_of_over {outcome : EmitOutcome} (h : (r.ruling scope call).decision = .over outcome) :
    (r.emit scope call).1.publisher = r.publisher ∧ (r.emit scope call).1.target = r.target ∧
      (r.emit scope call).2 ≠ .emitted ∧ (r.emit scope call).2 ≠ .rejected := by
  rw [r.emit_over h]
  exact ⟨r.decided_publisher scope call, r.decided_target scope call, Guards.judge_over h⟩

/-- An action does to the publisher what it deals with it. -/
theorem publisher_apply (target : r.target = .publisher) (a : Action) :
    (r.apply a).publisher = r.publisher.run (r.dealing? a).toList ∧
      (r.apply a).target = .publisher := by
  cases a with
  | create => exact ⟨rfl, target⟩
  | perform scope op =>
    exact ⟨publisher_observeAll _ _, (target_observeAll _ _).trans target⟩
  | emit scope call =>
    change (r.emit scope call).1.publisher = _ ∧ (r.emit scope call).1.target = _
    rw [dealing?]
    cases h : (r.ruling scope call).decision with
    | «over» outcome =>
      obtain ⟨publisher, still, _⟩ := emit_of_over h
      exact ⟨publisher, still.trans target⟩
    | offer e =>
      obtain ⟨publisher, still, _⟩ := emit_of_offer target h
      exact ⟨publisher, still⟩
  | begin scope names headers =>
    exact ⟨publisher_observeAll _ _, (target_observeAll _ _).trans target⟩
  | finish scope => exact ⟨rfl, target⟩
  | clear scope => exact ⟨rfl, target⟩
  | publisher p => exact ⟨rfl, target⟩

/-- A run does to the publisher what it deals with it. -/
theorem publisher_run (target : r.target = .publisher) (actions : List Action) :
    (r.run actions).publisher = r.publisher.run (r.dealings actions) := by
  induction actions generalizing r with
  | nil => rfl
  | cons a rest ih =>
    obtain ⟨publisher, still⟩ := publisher_apply target a
    change ((r.apply a).run rest).publisher = _
    rw [ih still, publisher, dealings, Publisher.State.run_append]

/-- The receipts of the calls that returned with success. -/
def successes (receipts : List Receipt) : List Receipt :=
  receipts.filter fun c => c.outcome = .emitted

/-- How often an outcome was told. -/
def tellings (outcome : EmitOutcome) (receipts : List Receipt) : Nat :=
  receipts.countP fun c => c.outcome = outcome

/-- What the receipt of an action tells is what the publisher answers to it. -/
theorem receipt_of_dealing (target : r.target = .publisher)
    (guarded : ∀ e, a ≠ .publisher (.offer e)) :
    (successes (r.receipt? a).toList).map Receipt.built =
        (r.publisher.taken (r.dealing? a).toList).map some ∧
      tellings .emitted (r.receipt? a).toList + tellings .rejected (r.receipt? a).toList =
        (r.dealing? a).toList.countP Publisher.Action.isOffer := by
  cases a with
  | emit scope call =>
    rw [receipt?, dealing?]
    cases h : (r.ruling scope call).decision with
    | «over» outcome =>
      obtain ⟨_, _, noSuccess, noRefusal⟩ := emit_of_over h
      simp [successes, tellings, Guards.Decision.event?, Publisher.State.taken, noSuccess,
        noRefusal]
    | offer e =>
      obtain ⟨_, _, answer⟩ := emit_of_offer target h
      rw [answer]
      cases ha : (r.publisher.offer e).2 <;>
        simp [successes, tellings, Guards.Decision.event?, Publisher.State.taken,
          Publisher.State.answer, Publisher.Action.isOffer, ha]
  | publisher p =>
    cases p with
    | offer e => exact absurd rfl (guarded e)
    | _ => exact ⟨rfl, rfl⟩
  | _ => exact ⟨rfl, rfl⟩

/-- Guards are all that offers anything to the publisher in a run. -/
def Guarded (actions : List Action) : Prop := ∀ e, .publisher (.offer e) ∉ actions

/-- If guards are all that offers anything, what is taken are the events of the calls that returned
with success, and every call that returned with success or with a refusal was an offer. -/
theorem receipts_of_dealings (target : r.target = .publisher) {actions : List Action}
    (guarded : Guarded actions) :
    (successes (r.receipts actions)).map Receipt.built =
        (r.publisher.taken (r.dealings actions)).map some ∧
      tellings .emitted (r.receipts actions) + tellings .rejected (r.receipts actions) =
        (r.dealings actions).countP Publisher.Action.isOffer := by
  induction actions generalizing r with
  | nil => exact ⟨rfl, rfl⟩
  | cons a rest ih =>
    obtain ⟨publisher, still⟩ := publisher_apply target a
    obtain ⟨taken, offers⟩ := receipt_of_dealing target (a := a) fun e he =>
      guarded e (he ▸ List.mem_cons_self ..)
    obtain ⟨later, more⟩ := ih still fun e he => guarded e (List.mem_cons_of_mem _ he)
    rw [publisher] at later
    constructor
    · rw [receipts, dealings, Publisher.State.taken_append, List.map_append, successes,
        List.filter_append, List.map_append]
      exact congrArg₂ (· ++ ·) taken later
    · rw [receipts, dealings, List.countP_append, ← offers, ← more]
      simp only [tellings, List.countP_append]
      omega

/-- Who returned with success is counted by it. -/
theorem length_successes (receipts : List Receipt) :
    (successes receipts).length = tellings .emitted receipts :=
  List.countP_eq_length_filter.symm

section request

variable {i : ScopeId}

/-- A chat turn that a call builds is asked for the slot of the chat turn. -/
theorem mem_asks_of_chat (built : (r.ruling (some i) call).decision.event? = some e)
    (chat : e.kind = .chatTurn) :
    (Action.emit (some i) call).calls i none = true ∧ e ∈ r.asks (.emit (some i) call) := by
  constructor
  · cases h : (r.ruling (some i) call).decision with
    | «over» outcome =>
      rw [h] at built
      contradiction
    | offer other =>
      rw [h] at built
      cases built
      have asked : call.kind = .chatTurn := (Guards.kind_of_offer h).symm.trans chat
      cases call with
      | chatTurn f => simp [Action.calls, Guards.Call.slot]
      | _ => contradiction
  · rw [asks_emit, built]
    exact List.mem_singleton_self e

/-- A chat turn that a receipt of a scope shows was attempted for the slot of the chat turn. -/
theorem mem_attempts_of_receipt {during : List Action} {c : Receipt}
    (told : c ∈ r.receipts during) (scope : c.scope = some i) (built : c.built = some e)
    (chat : e.kind = .chatTurn) : e ∈ r.attempts i none during := by
  induction during generalizing r with
  | nil => contradiction
  | cons a rest ih =>
    rcases List.mem_append.mp told with now | later
    · refine List.mem_append_left _ ?_
      cases a with
      | emit own call =>
        obtain rfl := List.mem_singleton.mp now
        obtain rfl : own = some i := scope
        obtain ⟨calls, asks⟩ := mem_asks_of_chat built chat
        rwa [if_pos calls]
      | _ => contradiction
    · exact List.mem_append_right _ (ih later)

/-- A chat turn that a guard call in a scope builds in a run. -/
structure ChatTurnOf (i : ScopeId) (r : Relay) (during : List Action) (e : Event) : Prop where
  /-- It is a chat turn. -/
  kind : e.kind = .chatTurn
  /-- It was built in the scope. -/
  built : ∃ c ∈ r.receipts during, c.scope = some i ∧ c.built = some e

/-- In a request, from the reset at its start to the one at its end, at most one chat turn is
built. -/
theorem chat_turn_of_request {reset : Action} (opens : reset.Opens r i) {during : List Action}
    (kept : ∀ a ∈ during, a.resets i = false) {e' : Event}
    (h : ChatTurnOf i (r.apply reset) during e) (h' : ChatTurnOf i (r.apply reset) during e') :
    e = e' := by
  obtain ⟨chat, c, told, scope, built⟩ := h
  obtain ⟨chat', c', told', scope', built'⟩ := h'
  have mine := mem_attempts_of_receipt told scope built chat
  have yours := mem_attempts_of_receipt told' scope' built' chat'
  have once := length_attempts_le opens.known kept none
  have free : ((r.apply reset).scopes.get i).claims.holds none = false := by
    rw [opens.claims_eq]
    rfl
  rw [free] at once
  obtain ⟨only, hs⟩ := List.length_eq_one_iff.mp
    (Nat.le_antisymm once (List.length_pos_of_mem mine))
  rw [hs] at mine yours
  exact (List.mem_singleton.mp mine).trans (List.mem_singleton.mp yours).symm

end request

/-- Whatever tasks do in whatever requests, if guards are all that offers anything to a publisher,
then what it accepted are the events of the calls that returned with success, in their order. The
counters tell how many calls returned with success and with a refusal, every event that is handed
to the collector was built by a call that returned with success, and of the chat turns of one
request at most one is ever handed over. -/
theorem guards_and_publisher_agree (made : Publisher.Made r.publisher)
    (target : r.target = .publisher) {actions : List Action} (guarded : Guarded actions) :
    let t := r.run actions
    (successes (r.receipts actions)).map Receipt.built =
      (Publisher.accepted t.publisher.history).map some ∧
    tellings .emitted (r.receipts actions) = t.publisher.stats.accepted ∧
    tellings .rejected (r.receipts actions) =
      t.publisher.stats.rejected + t.publisher.stats.queueFull ∧
    (∀ e, t.publisher.Handed e →
      ∃ c ∈ r.receipts actions, c.outcome = .emitted ∧ c.built = some e) ∧
    ∀ {i before reset during after}, actions = before ++ reset :: (during ++ after) →
      reset.Opens (r.run before) i → (∀ a ∈ during, a.resets i = false) →
      ∀ {e e'}, ChatTurnOf i ((r.run before).apply reset) during e →
        ChatTurnOf i ((r.run before).apply reset) during e' →
        t.publisher.Handed e → t.publisher.Handed e' → e = e' := by
  intro t
  have publisher : t.publisher = r.publisher.run (r.dealings actions) :=
    publisher_run target actions
  obtain ⟨taken, offers⟩ := receipts_of_dealings target guarded
  have accepted :
      Publisher.accepted t.publisher.history = r.publisher.taken (r.dealings actions) := by
    rw [publisher, ← Publisher.accepted_tale]
    exact made.accepted_tale _
  rw [← accepted] at taken
  have emitted : tellings .emitted (r.receipts actions) = t.publisher.stats.accepted := by
    have counted := (made.counted (r.dealings actions)).accepted
    rw [Publisher.accepted_tale, ← publisher] at counted
    rw [counted, ← length_successes, ← List.length_map Receipt.built, taken, List.length_map]
  refine ⟨taken, emitted, ?_, fun e handed => ?_, fun _ opens kept _ _ h h' _ _ => ?_⟩
  · have counted := r.publisher.offers_run (r.dealings actions)
    rw [← publisher, ← offers, emitted, made.untouched.stats] at counted
    simp only [Publisher.Stats.offers] at counted
    omega
  · rw [publisher] at handed
    have inside := made.accepted_of_handed _ handed
    rw [← publisher] at inside
    have told : some e ∈ (successes (r.receipts actions)).map Receipt.built := by
      rw [taken]
      exact List.mem_map_of_mem inside
    obtain ⟨c, hc, built⟩ := List.mem_map.mp told
    obtain ⟨mem, outcome⟩ := List.mem_filter.mp hc
    exact ⟨c, mem, of_decide_eq_true outcome, built⟩
  · exact chat_turn_of_request opens kept h h'

/-- A relay with a small publisher whose first delivery fails. -/
def hampered : Relay := { publisher := Publisher.small [⟨0, .failure (.status 503 "busy")⟩] }

/-- What is said about a chat turn. -/
def greeting : Guards.ChatFields := { intent := "greet", route := "direct", domain := "staff" }

/-- The chat turn of a visitor who talks. -/
def greeted (serial : Nat) (conversation : String) : Event where
  id := ⟨serial⟩
  trace := "trace"
  conversation := conversation
  turn := some 1
  user := "user"
  dept := "dept"
  occurredAt := ⟨0⟩
  payload := .chatTurn ⟨⟨"greet", by decide⟩, ⟨"direct", by decide⟩, ⟨"staff", by decide⟩,
    false, 0, false, false, none, none⟩

/-- Two requests share a publisher. Each has a chat turn; the first one asks for it again and finds
the queue full for its feedback, and the second one gives its feedback after the shutdown. -/
def sharing : List Action :=
  [.create,
    .perform (some 0) (.setCorrelation { visitor with conversation := "first", turn := some 1 }),
    .perform (some 1) (.setCorrelation { visitor with conversation := "second", turn := some 1 }),
    .emit (some 0) (.chatTurn greeting), .emit (some 1) (.chatTurn greeting),
    .emit (some 0) (.chatTurn greeting), .emit (some 1) (.security "pii" "mask"),
    .emit (some 0) (.feedback .like "first" 1), .publisher .flush, .publisher (.poll 0),
    .publisher (.elapse 200), .publisher (.poll 0), .publisher .shutdown, .publisher (.poll 1),
    .emit (some 1) (.feedback .like "second" 1)]

/-- Of five offers three are accepted, and the chat turn of the first request is handed over, even
twice, but no other one. -/
theorem two_requests_agree_with_publisher :
    let t := hampered.run (.create :: sharing)
    Publisher.Made hampered.publisher ∧ hampered.target = .publisher ∧
    Guarded (.create :: sharing) ∧
    tellings .emitted (hampered.receipts (.create :: sharing)) = 3 ∧
    tellings .rejected (hampered.receipts (.create :: sharing)) = 2 ∧
    t.publisher.stats.retries = 1 ∧
    (∀ e, t.publisher.Handed e →
      ∃ c ∈ hampered.receipts (.create :: sharing), c.outcome = .emitted ∧ c.built = some e) ∧
    t.publisher.Handed (greeted 0 "first") ∧
    ∀ e, ChatTurnOf 0 (hampered.apply .create) sharing e → t.publisher.Handed e →
      e = greeted 0 "first" := by
  intro t
  have made : Publisher.Made hampered.publisher := Publisher.made_small _
  have guarded : Guarded (.create :: sharing) := by
    intro e he
    simp [sharing] at he
  obtain ⟨_, emitted, rejected, handed, once⟩ :=
    guards_and_publisher_agree made rfl guarded
  have stats : t.publisher.stats.accepted = 3 ∧
      t.publisher.stats.rejected + t.publisher.stats.queueFull = 2 ∧
      t.publisher.stats.retries = 1 := by decide +kernel
  have first : t.publisher.Handed (greeted 0 "first") := by
    refine ⟨0, 200, ⟨"chat-service", ⟨0⟩, [greeted 0 "first", greeted 1 "second"]⟩, true, ?_, ?_⟩
    · decide +kernel
    · exact List.mem_cons_self ..
  have mine : ChatTurnOf 0 (hampered.apply .create) sharing (greeted 0 "first") := by
    refine ⟨rfl, ⟨some 0, .chatTurn greeting, some (greeted 0 "first"), .emitted⟩, ?_, rfl, rfl⟩
    decide +kernel
  have request : Action.create :: sharing = [] ++ .create :: (sharing ++ []) := by
    rw [List.append_nil, List.nil_append]
  refine ⟨made, rfl, guarded, emitted.trans stats.1, rejected.trans stats.2.1, stats.2.2, handed,
    first, fun e h he => ?_⟩
  exact once request (.create rfl) (by decide) h mine he first

end Relay

end EventRelay
