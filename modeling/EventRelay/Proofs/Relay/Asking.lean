import EventRelay.Proofs.Relay.Shares

/-!
# What guards ask of the sink

A guard call asks the sink for one event or for none. It asks only if the slot of the call was free
in the scope, and what it asks for carries the correlation that the scope has at that moment. That a
slot was free is the only thing on which it depends whether a call is a duplicate.
-/

namespace EventRelay

open Request (Claims Scope ScopeId Slot)

/-- The slot of a call; `none` is the one of the chat turn. -/
def Guards.Call.slot : Guards.Call → Option Slot
  | .chatTurn _ => none
  | .security blockType rule => some (.security blockType rule)
  | .feedback value conversation turn => some (.feedback conversation turn value)

/-- Whether a slot is claimed; `none` is the one of the chat turn. -/
def Request.Claims.holds (c : Claims) : Option Slot → Bool
  | none => c.chatTurn
  | some s => c.has s

/-- The event that a decision asks the sink to take. -/
def Guards.Decision.event? : Guards.Decision → Option Event
  | .over _ => none
  | .offer e => some e

namespace Request.Claims

variable {c : Claims}

/-- After the chat turn was claimed exactly that slot is taken in addition. -/
theorem holds_claimChatTurn (slot : Option Slot) :
    c.claimChatTurn.1.holds slot = (c.holds slot || slot == none) := by
  cases slot with
  | none => exact (Bool.or_true _).symm
  | some s => exact (Bool.or_false _).symm

/-- After a claim exactly that slot is taken in addition. -/
theorem holds_claim (s : Slot) (slot : Option Slot) :
    (c.claim s).1.holds slot = (c.holds slot || slot == some s) := by
  cases slot with
  | none =>
    change (c.claim s).1.chatTurn = (c.chatTurn || false)
    rw [Bool.or_false, claim]
    split <;> rfl
  | some t => exact c.has_claim s t

end Request.Claims

namespace Guards

/-- A call claims its own slot and no other. -/
theorem Call.holds_claim (call : Call) (c : Claims) (slot : Option Slot) :
    (call.claim c).1.holds slot = (c.holds slot || slot == call.slot) := by
  cases call with
  | chatTurn f => exact Claims.holds_claimChatTurn slot
  | security blockType rule => exact Claims.holds_claim _ slot
  | feedback value conversation turn => exact Claims.holds_claim _ slot

/-- A call finds its slot free if it is not claimed. -/
theorem Call.claim_free (call : Call) (c : Claims) : (call.claim c).2 = !c.holds call.slot := by
  cases call with
  | chatTurn f => rfl
  | security blockType rule => exact c.claim_snd _
  | feedback value conversation turn => exact c.claim_snd _

/-- An event carries the identifiers of a correlation. -/
structure Carries (e : Event) (c : Correlation) : Prop where
  trace : c.trace = some e.trace
  user : c.user = some e.user
  dept : c.dept = some e.dept
  conversation : c.conversation = e.conversation
  turn : c.turn = e.turn

end Guards

/-- A text is taken exactly if it is there. -/
theorem Correlation.present_eq_ok_iff {field : String} {value : Option String} {s : String} :
    present field value = .ok s ↔ value = some s := by
  cases value <;> simp [present]

/-- An event that is built carries the correlation and the payload that it is built from. -/
theorem Event.carries_of_build {id : EventId} {time : Instant} {c : Correlation} {p : Payload}
    {e : Event} (h : build id time c p = .ok e) : Guards.Carries e c ∧ e.payload = p := by
  simp only [build, bind, Except.bind, pure, Except.pure] at h
  split at h
  · contradiction
  · split at h
    · contradiction
    · next trace ht =>
      split at h
      · contradiction
      · next user hu =>
        split at h
        · contradiction
        · next dept hd =>
          cases h
          exact ⟨⟨Correlation.present_eq_ok_iff.mp ht, Correlation.present_eq_ok_iff.mp hu,
            Correlation.present_eq_ok_iff.mp hd, rfl, rfl⟩, rfl⟩

namespace Guards

variable {call : Call} {s : Scope} {hasSink : Bool} {id : EventId} {time : Instant}

/-- A call is a duplicate exactly if its slot was claimed before. -/
theorem judge_duplicate :
    (judge call (some s) hasSink id time).decision = .over .duplicate ↔
      s.claims.holds call.slot = true := by
  have free := call.claim_free s.claims
  simp only [judge]
  split
  · next taken =>
    rw [free] at taken
    simpa using taken
  · next other =>
    rw [free] at other
    have unclaimed : ¬ s.claims.holds call.slot = true := by simpa using other
    refine iff_of_false (fun h => ?_) unclaimed
    split at h
    · cases h
    · split at h
      · cases h
      · split at h <;> cases h

/-- Only for a slot that was free is an event built, only for a sink, and from the payload of the
call and the correlation of the scope. -/
theorem judge_offer {e : Event} (h : (judge call (some s) hasSink id time).decision = .offer e) :
    s.claims.holds call.slot = false ∧ hasSink = true ∧
      ∃ p, (call.payload s.metrics).1 = .ok p ∧ Event.build id time s.correlation p = .ok e := by
  have free := call.claim_free s.claims
  simp only [judge] at h
  split at h
  · contradiction
  · next other =>
    rw [free] at other
    split at h
    · contradiction
    · split at h
      · contradiction
      · next sink =>
        split at h
        · contradiction
        · next built =>
          cases h
          refine ⟨by simpa using other, by simpa using sink, ?_⟩
          cases hp : (call.payload s.metrics).1 with
          | error err =>
            rw [hp] at built
            contradiction
          | ok p =>
            rw [hp] at built
            exact ⟨p, rfl, built⟩

end Guards

namespace Relay

/-- The event that the sink was asked to take. -/
def Observation.asked? : Observation → Option Event
  | .publisher (.offered e _) => some e
  | .recorded e => some e
  | _ => none

/-- The events that the sink was asked to take, the latest first. -/
def asked (history : List Observation) : List Event := history.filterMap Observation.asked?

/-- The events that the sink is asked to take during an action. -/
def asks (r : Relay) (a : Action) : List Event :=
  asked ((r.apply a).history.take ((r.apply a).history.length - r.history.length))

/-- What a guard decides on a call. -/
def ruling (r : Relay) (scope : Option ScopeId) (call : Guards.Call) : Guards.Ruling :=
  Guards.judge call (r.scopes.seen scope) (r.target ≠ .none) ⟨r.serial⟩ ⟨r.now⟩

/-- Observations that ask for some events are added to the history. -/
def Adds (r t : Relay) (events : List Event) : Prop :=
  ∃ fresh, t.history = fresh ++ r.history ∧ asked fresh = events

namespace Adds

variable {r t u : Relay} {events more : List Event}

theorem trans (h : Adds r t events) (h' : Adds t u more) : Adds r u (more ++ events) := by
  obtain ⟨fresh, ht, rfl⟩ := h
  obtain ⟨fresh', hu, rfl⟩ := h'
  refine ⟨fresh' ++ fresh, ?_, List.filterMap_append⟩
  rw [hu, ht, List.append_assoc]

theorem refl (r : Relay) : Adds r r [] := ⟨[], rfl, rfl⟩

/-- The history stays as it is. -/
theorem same (h : t.history = r.history) : Adds r t [] := ⟨[], h, rfl⟩

/-- One thing is observed that asks for nothing. -/
theorem silent {o : Observation} (h : o.asked? = none) : Adds r (r.observe o) [] :=
  ⟨[o], rfl, List.filterMap_cons_none h⟩

/-- What is added is what the action asks for. -/
theorem asks {a : Action} (h : Adds r (r.apply a) events) : r.asks a = events := by
  obtain ⟨fresh, hh, rfl⟩ := h
  rw [Relay.asks, hh, List.length_append, Nat.add_sub_cancel, List.take_left']
  rfl

end Adds

private theorem adds_observeAll (r : Relay) {os : List Observation}
    (h : ∀ o ∈ os, o.asked? = none) : Adds r (r.observeAll os) [] := by
  induction os generalizing r with
  | nil => exact .refl r
  | cons o rest ih =>
    exact (Adds.silent (h o (List.mem_cons_self ..))).trans
      (ih (r.observe o) fun x hx => h x (List.mem_cons_of_mem _ hx))

/-- What is new in the history of the publisher is new in the history of the relay. -/
private theorem adds_setPublisher (r : Relay) {p : Publisher.State}
    {fresh : List Publisher.Observation} (h : p.history = fresh ++ r.publisher.history) :
    Adds r (r.setPublisher p) (asked (fresh.map .publisher)) := by
  refine ⟨fresh.map .publisher, ?_, rfl⟩
  rw [setPublisher, h, List.length_append, Nat.add_sub_cancel, List.take_left']
  rfl

/-- The publisher tells of every event that it is offered. -/
private theorem history_offer (p : Publisher.State) (e : Event) :
    ∃ fresh, (p.offer e).1.history = fresh ++ p.history ∧
      asked (fresh.map .publisher) = [e] := by
  unfold Publisher.State.offer
  split
  · exact ⟨[_, _], rfl, rfl⟩
  · split
    · dsimp only
      split
      · exact ⟨[_], rfl, rfl⟩
      · exact ⟨[_], rfl, rfl⟩
    · exact ⟨[_, _], rfl, rfl⟩

/-- Offering an event asks for that event. -/
private theorem adds_offer (r : Relay) (e : Event) (sink : r.target ≠ .none) :
    Adds r (r.offer e).1 [e] := by
  unfold offer
  split
  · contradiction
  · obtain ⟨fresh, hh, he⟩ := history_offer r.publisher e
    exact he ▸ r.adds_setPublisher hh
  · exact ⟨[.recorded e], rfl, rfl⟩

@[simp] theorem target_observeAll (r : Relay) (os : List Observation) :
    (r.observeAll os).target = r.target := by
  induction os generalizing r with
  | nil => rfl
  | cons o rest ih => exact ih (r.observe o)

/-- The relay after a guard has decided: the slot is claimed and the reports are made. -/
def decided (r : Relay) (scope : Option ScopeId) (call : Guards.Call) : Relay :=
  let claimed := match scope, (r.ruling scope call).claims with
    | some i, some claims => r.setScope i { r.scopes.get i with claims }
    | _, _ => r
  claimed.observeAll ((r.ruling scope call).notices.map .guard)

/-- A call that is over without an event tells how it ended. -/
theorem emit_over (r : Relay) {scope : Option ScopeId} {call : Guards.Call}
    {outcome : EmitOutcome} (h : (r.ruling scope call).decision = .over outcome) :
    r.emit scope call =
      ((r.decided scope call).observe (.emitted scope call outcome), outcome) := by
  unfold ruling at h
  simp only [emit, h]
  rfl

/-- A call for which an event was built offers it, and tells whether the sink took it. -/
theorem emit_offer (r : Relay) {scope : Option ScopeId} {call : Guards.Call} {e : Event}
    (h : (r.ruling scope call).decision = .offer e) :
    ∃ t : Relay, ∃ accepted, { r.decided scope call with
        serial := (r.decided scope call).serial + 1 }.offer e = (t, accepted) ∧
      r.emit scope call = ((t.observe (.guard (Guards.conclude e accepted).2)).observe
        (.emitted scope call (Guards.conclude e accepted).1), (Guards.conclude e accepted).1) := by
  unfold ruling at h
  simp only [emit, h]
  exact ⟨_, _, rfl, rfl⟩

private theorem adds_decided (r : Relay) (scope : Option ScopeId) (call : Guards.Call) :
    Adds r (r.decided scope call) [] ∧ (r.decided scope call).target = r.target := by
  have silent : ∀ o ∈ (r.ruling scope call).notices.map Observation.guard, o.asked? = none := by
    intro o ho
    obtain ⟨n, _, rfl⟩ := List.mem_map.mp ho
    rfl
  unfold decided
  dsimp only
  split
  · exact ⟨(Adds.same rfl).trans (adds_observeAll _ silent), target_observeAll _ _⟩
  · exact ⟨adds_observeAll r silent, target_observeAll _ _⟩

/-- A guard call asks the sink for what is decided. -/
theorem asks_emit (r : Relay) (scope : Option ScopeId) (call : Guards.Call) :
    r.asks (.emit scope call) = (r.ruling scope call).decision.event?.toList := by
  obtain ⟨reports, target⟩ := r.adds_decided scope call
  refine Adds.asks ?_
  change Adds r (r.emit scope call).1 _
  cases h : (r.ruling scope call).decision with
  | «over» outcome =>
    rw [r.emit_over h]
    exact reports.trans (.silent rfl)
  | offer e =>
    have sink : r.target ≠ .none := by
      cases scope with
      | none => contradiction
      | some i => exact of_decide_eq_true (Guards.judge_offer h).2.1
    obtain ⟨t, accepted, ht, he⟩ := r.emit_offer h
    have offered := adds_offer { r.decided scope call with
      serial := (r.decided scope call).serial + 1 } e (target.symm ▸ sink)
    rw [ht] at offered
    rw [he]
    exact ((reports.trans offered).trans (.silent rfl)).trans (.silent rfl)

/-- A guard call tells that it is a duplicate if that is decided. -/
theorem emit_eq_duplicate_iff (r : Relay) (scope : Option ScopeId) (call : Guards.Call) :
    (r.emit scope call).2 = .duplicate ↔
      (r.ruling scope call).decision = .over .duplicate := by
  cases h : (r.ruling scope call).decision with
  | «over» outcome =>
    rw [r.emit_over h]
    exact ⟨congrArg _, fun he => by cases he; rfl⟩
  | offer e =>
    obtain ⟨t, accepted, _, he⟩ := r.emit_offer h
    rw [he]
    refine iff_of_false (fun hd => ?_) Guards.Decision.noConfusion
    cases accepted <;> cases hd

end Relay

end EventRelay
