import EventRelay.Proofs.Publisher.Run
import EventRelay.Proofs.Relay.Asking

/-!
# One attempt for each slot

A slot that was claimed stays claimed until the claims of its scope are cleared, and nothing else
claims it. A guard asks the sink only for a slot that was free, and claims it at the same time. So
between two resets of a scope the sink is asked at most once for each slot, and a call is a
duplicate exactly if its own slot was claimed before.
-/

namespace EventRelay.Relay

open Request (Claims Scope ScopeId Slot)

namespace Action

/-- The slot that an action claims in its scope. -/
def claim? : Action → Option (Option Slot)
  | .emit _ call => some call.slot
  | .perform _ .claimChatTurn => some none
  | .perform _ (.claim slot) => some (some slot)
  | _ => none

/-- Whether an action clears the claims of its scope. -/
def wipes : Action → Bool
  | .perform _ .resetClaims => true
  | .begin .. => true
  | .finish _ => true
  | .clear _ => true
  | _ => false

/-- Whether an action claims a slot in a scope. -/
def claims (i : ScopeId) (slot : Option Slot) (a : Action) : Bool :=
  a.concerns i && a.claim? == some slot

/-- Whether an action clears the claims of a scope. -/
def resets (i : ScopeId) (a : Action) : Bool := a.concerns i && a.wipes

/-- Whether an action is a guard call for a slot in a scope. -/
def calls (i : ScopeId) (slot : Option Slot) : Action → Bool
  | .emit scope call => scope = some i && call.slot == slot
  | _ => false

/-- After an action nothing is claimed in a scope: it makes the scope or clears its claims. -/
inductive Opens (r : Relay) (i : ScopeId) : Action → Prop
  /-- The scope is made. -/
  | create (new : r.scopes.states.length = i) : Opens r i .create
  /-- The claims of the scope are cleared. -/
  | reset {a : Action} (known : i < r.scopes.states.length) (resets : a.resets i = true) :
    Opens r i a

/-- What is claimed in a scope after an action was claimed before, or is claimed by it. -/
private theorem holds_effect {a : Action} (s : Scope) (kept : a.wipes = false)
    (slot : Option Slot) :
    (a.effect s).claims.holds slot = (s.claims.holds slot || a.claim? == some slot) := by
  have turned (own : Option Slot) : (some own == some slot) = (slot == own) := by
    rw [Option.some_beq_some, BEq.comm]
  have unclaimed (h : a.claim? = none) :
      s.claims.holds slot = (s.claims.holds slot || a.claim? == some slot) := by
    rw [h]
    exact (Bool.or_false _).symm
  cases a with
  | create => exact unclaimed rfl
  | perform scope op =>
    cases op with
    | claimChatTurn => exact (Claims.holds_claimChatTurn slot).trans (by rw [claim?, turned])
    | claim own => exact (Claims.holds_claim own slot).trans (by rw [claim?, turned])
    | resetClaims => contradiction
    | _ => exact unclaimed rfl
  | emit scope call => exact (call.holds_claim _ slot).trans (by rw [claim?, turned])
  | publisher p => exact unclaimed rfl
  | _ => contradiction

end Action

/-- The events that the sink is asked to take in a run by calls for a slot of a scope. -/
def attempts (i : ScopeId) (slot : Option Slot) (r : Relay) : List Action → List Event
  | [] => []
  | a :: rest => (if a.calls i slot then r.asks a else []) ++ attempts i slot (r.apply a) rest

variable {r : Relay} {i : ScopeId} {a : Action}

/-- Until a reset a slot is claimed if it was claimed before or is claimed by the action. -/
theorem holds_apply (known : i < r.scopes.states.length) (kept : a.resets i = false)
    (slot : Option Slot) :
    ((r.apply a).scopes.get i).claims.holds slot =
      ((r.scopes.get i).claims.holds slot || a.claims i slot) := by
  rw [get_apply known, Action.claims]
  cases mine : a.concerns i with
  | false => exact (Bool.or_false _).symm
  | true =>
    have unwiped : a.wipes = false := by rwa [Action.resets, mine, Bool.true_and] at kept
    exact Action.holds_effect _ unwiped slot

/-- Until a reset a slot is claimed if it was claimed before or in the run. -/
theorem holds_run (known : i < r.scopes.states.length) {during : List Action}
    (kept : ∀ a ∈ during, a.resets i = false) (slot : Option Slot) :
    ((r.run during).scopes.get i).claims.holds slot =
      ((r.scopes.get i).claims.holds slot || during.any (Action.claims i slot)) := by
  induction during generalizing r with
  | nil => exact (Bool.or_false _).symm
  | cons a rest ih =>
    have later := ih (Nat.lt_of_lt_of_le known (r.length_le_apply a))
      fun x hx => kept x (List.mem_cons_of_mem _ hx)
    change (((r.apply a).run rest).scopes.get i).claims.holds slot = _
    rw [later, holds_apply known (kept a (List.mem_cons_self ..)), List.any_cons, Bool.or_assoc]

namespace Action.Opens

/-- A scope that was opened is there. -/
theorem known (h : a.Opens r i) : i < (r.apply a).scopes.states.length := by
  cases h with
  | create new =>
    subst new
    change _ < (r.scopes.states ++ [_]).length
    rw [List.length_append]
    exact Nat.lt_succ_self _
  | reset known _ => exact Nat.lt_of_lt_of_le known (r.length_le_apply a)

/-- In a scope that was opened nothing is claimed. -/
theorem claims_eq (h : a.Opens r i) : ((r.apply a).scopes.get i).claims = {} := by
  cases h with
  | create new =>
    subst new
    rw [get_create]
    rfl
  | reset known resets =>
    obtain ⟨mine, wipes⟩ := Bool.and_eq_true_iff.mp resets
    rw [get_apply known, if_pos mine]
    cases a with
    | perform scope op =>
      cases op with
      | resetClaims => rfl
      | _ => contradiction
    | begin scope names headers => rfl
    | finish scope => rfl
    | clear scope => rfl
    | _ => contradiction

end Action.Opens

/-- A guard call for a slot claims it, whatever comes of it. -/
private theorem claims_of_calls {slot : Option Slot} (call : a.calls i slot = true) :
    a.claims i slot = true := by
  cases a with
  | emit scope own =>
    obtain ⟨hs, hc⟩ := Bool.and_eq_true_iff.mp call
    obtain rfl := eq_of_beq hc
    exact Bool.and_eq_true_iff.mpr ⟨hs, beq_self_eq_true _⟩
  | _ => contradiction

/-- A call for a slot asks the sink at most once, and not at all if the slot is claimed. -/
private theorem length_asks_le {slot : Option Slot} (call : a.calls i slot = true) :
    (r.asks a).length ≤ if (r.scopes.get i).claims.holds slot then 0 else 1 := by
  cases a with
  | emit scope own =>
    obtain ⟨hs, hc⟩ := Bool.and_eq_true_iff.mp call
    obtain rfl := of_decide_eq_true hs
    obtain rfl := eq_of_beq hc
    rw [asks_emit]
    cases h : (r.ruling (some i) own).decision with
    | «over» outcome => exact Nat.zero_le _
    | offer e =>
      have free : (r.scopes.get i).claims.holds own.slot = false := (Guards.judge_offer h).1
      rw [free]
      exact Nat.le_refl 1
  | _ => contradiction

/-- Until a reset the sink is asked for a slot at most once, and not at all if it is claimed. -/
theorem length_attempts_le (known : i < r.scopes.states.length) {during : List Action}
    (kept : ∀ a ∈ during, a.resets i = false) (slot : Option Slot) :
    (r.attempts i slot during).length ≤ if (r.scopes.get i).claims.holds slot then 0 else 1 := by
  induction during generalizing r with
  | nil => exact Nat.zero_le _
  | cons a rest ih =>
    have later := ih (Nat.lt_of_lt_of_le known (r.length_le_apply a))
      fun x hx => kept x (List.mem_cons_of_mem _ hx)
    rw [holds_apply known (kept a (List.mem_cons_self ..))] at later
    rw [attempts, List.length_append]
    by_cases call : a.calls i slot = true
    · -- The call claims the slot, so that nothing is asked for it later.
      have claims : a.claims i slot = true := claims_of_calls call
      rw [claims, Bool.or_true, if_pos rfl] at later
      rw [if_pos call, Nat.le_zero.mp later]
      exact length_asks_le call
    · rw [if_neg call, List.length_nil, Nat.zero_add]
      refine Nat.le_trans later ?_
      cases (r.scopes.get i).claims.holds slot with
      | true => exact Nat.le_refl 0
      | false => split <;> decide

/-- From one reset of the claims of a scope to the next, whatever any tasks do in whatever scopes,
the sink is asked at most once for each slot, and a call in the scope is a duplicate exactly if its
slot was claimed in the meantime. -/
theorem slots_are_attempted_once (r : Relay) {i : ScopeId} {reset : Action}
    (opens : reset.Opens r i) {during : List Action} (kept : ∀ a ∈ during, a.resets i = false) :
    (∀ slot, ((r.apply reset).attempts i slot during).length ≤ 1) ∧
    ∀ call, (((r.apply reset).run during).emit (some i) call).2 = .duplicate ↔
      ∃ a ∈ during, a.claims i call.slot = true := by
  have fresh (slot : Option Slot) :
      ((r.apply reset).scopes.get i).claims.holds slot = false := by
    rw [opens.claims_eq]
    cases slot <;> rfl
  refine ⟨fun slot => ?_, fun call => ?_⟩
  · have once := length_attempts_le opens.known kept slot
    rw [fresh slot] at once
    exact once
  · have held := holds_run opens.known kept call.slot
    rw [fresh call.slot, Bool.false_or] at held
    rw [emit_eq_duplicate_iff]
    change (Guards.judge call (some _) _ _ _).decision = _ ↔ _
    rw [Guards.judge_duplicate, held, List.any_eq_true]

/-- A relay with a small publisher and no scopes. -/
def unused : Relay := { publisher := Publisher.small [] }

/-- Enough of a correlation for a feedback. -/
def visitor : Correlation := { trace := "trace", user := "user", dept := "dept" }

/-- A feedback is given before the correlation is known, and then again; another one is given
twice. -/
def repeatedFeedback : List Action :=
  [.emit (some 0) (.feedback .like "chat" 1), .perform (some 0) (.setCorrelation visitor),
    .emit (some 0) (.feedback .like "chat" 1), .emit (some 0) (.feedback .dislike "chat" 1),
    .emit (some 0) (.feedback .dislike "chat" 1)]

/-- In a scope that was just made, the feedback that came too early is not asked for any more, the
other one is asked for once, and a third one would be no duplicate. -/
theorem feedback_is_attempted_once :
    Action.Opens unused 0 .create ∧ (∀ a ∈ repeatedFeedback, a.resets 0 = false) ∧
    ((unused.apply .create).attempts 0 (some (.feedback "chat" 1 .like)) repeatedFeedback) = [] ∧
    ((unused.apply .create).attempts 0 (some (.feedback "chat" 1 .dislike))
      repeatedFeedback).length = 1 ∧
    (((unused.apply .create).run repeatedFeedback).emit (some 0) (.feedback .like "chat" 1)).2 =
      .duplicate ∧
    (((unused.apply .create).run repeatedFeedback).emit (some 0) (.feedback .like "chat" 2)).2 ≠
      .duplicate := by
  have opens : Action.Opens unused 0 .create := .create rfl
  have kept : ∀ a ∈ repeatedFeedback, a.resets 0 = false := by decide
  obtain ⟨once, duplicate⟩ := slots_are_attempted_once unused opens kept
  refine ⟨opens, kept, by decide, ?_, ?_, ?_⟩
  · exact Nat.le_antisymm (once _) (by decide)
  · exact (duplicate _).mpr (by decide)
  · exact fun h => absurd ((duplicate _).mp h) (by decide)

end EventRelay.Relay
