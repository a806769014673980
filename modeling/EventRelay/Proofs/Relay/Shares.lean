import EventRelay.Relay

/-!
# The share of a scope in a run

Every action of a relay is taken in one scope, addressed to one scope, or has nothing to do with
scopes. What it does to its scope depends on nothing but the state of that scope, and all other
scopes stay as they are. So the state of a scope after a run is what its own actions, in their
order, have made of it.
-/

namespace EventRelay.Relay

open Request (Operation Scope ScopeId Scopes)

namespace Action

/-- The scope that an action is taken in or addressed to. -/
def scope? : Action → Option ScopeId
  | .create => none
  | .perform scope _ => scope
  | .emit scope _ => scope
  | .begin scope .. => some scope
  | .finish scope => some scope
  | .clear scope => some scope
  | .publisher _ => none

/-- What an action makes of its scope. -/
def effect (s : Scope) : Action → Scope
  | .create => s
  | .perform _ op => op.apply s
  | .emit _ call => { s with claims := (call.claim s.claims).1 }
  | .begin _ names headers => .opened (headers.extract names).1
  | .finish _ => .cleared
  | .clear _ => .cleared
  | .publisher _ => s

/-- Whether an action concerns a scope. -/
def concerns (i : ScopeId) (a : Action) : Bool := a.scope? = some i

end Action

variable {r : Relay} {i : ScopeId}

/-- In a scope a guard always claims the slot of the call. -/
theorem claims_judge (call : Guards.Call) (s : Scope) (hasSink : Bool) (id : EventId)
    (time : Instant) :
    (Guards.judge call (some s) hasSink id time).claims = some (call.claim s.claims).1 := by
  simp only [Guards.judge]
  split
  · rfl
  · split
    · rfl
    · split
      · rfl
      · split <;> rfl

theorem scopes_offer (r : Relay) (e : Event) : (r.offer e).1.scopes = r.scopes := by
  unfold offer
  split
  · rfl
  · rfl
  · rfl

/-- Outside any scope a guard changes none. -/
theorem scopes_emit_none (r : Relay) (call : Guards.Call) :
    (r.emit none call).1.scopes = r.scopes := by
  simp only [emit, Guards.judge, Scopes.seen, Option.map_none, scopes_observe, scopes_observeAll]

/-- In a scope a guard changes nothing but the claims of that scope. -/
theorem scopes_emit_some (r : Relay) (i : ScopeId) (call : Guards.Call) :
    (r.emit (some i) call).1.scopes = r.scopes.update i fun s =>
      { s with claims := (call.claim s.claims).1 } := by
  have claims := claims_judge call (r.scopes.get i) (r.target ≠ .none) ⟨r.serial⟩ ⟨r.now⟩
  simp only [emit, Scopes.seen, Option.map_some, claims]
  split
  · simp only [scopes_observe, scopes_observeAll]
    rfl
  · simp only [scopes_observe, scopes_offer, scopes_observeAll]
    rfl

theorem scopes_perform (r : Relay) (scope : Option ScopeId) (op : Operation) :
    (r.perform scope op).1.scopes = (r.scopes.perform scope op).1 := by
  simp only [perform, scopes_observeAll]

/-- An action changes its scope, makes a new one or leaves all scopes as they are. -/
theorem scopes_apply (r : Relay) (a : Action) :
    (r.apply a).scopes = match a.scope? with
      | some i => r.scopes.update i a.effect
      | none => if a = .create then ⟨r.scopes.states ++ [.cleared]⟩ else r.scopes := by
  cases a with
  | create => rfl
  | perform scope op =>
    cases scope with
    | none => exact r.scopes_perform none op
    | some j => exact r.scopes_perform (some j) op
  | emit scope call =>
    cases scope with
    | none => exact r.scopes_emit_none call
    | some j => exact r.scopes_emit_some j call
  | begin j names headers =>
    change (beginRequest r j names headers).scopes = _
    simp only [beginRequest, scopes_observe, setScope, scopes_observeAll]
    rfl
  | finish j => rfl
  | clear j => rfl
  | publisher p => rfl

theorem length_update (s : Scopes) (i : ScopeId) (f : Scope → Scope) :
    (s.update i f).states.length = s.states.length := List.length_set

/-- Only the making of a scope changes their number. -/
theorem length_apply (r : Relay) (a : Action) :
    (r.apply a).scopes.states.length =
      r.scopes.states.length + if a = .create then 1 else 0 := by
  rw [scopes_apply]
  split
  · next i h =>
    have other : a ≠ .create := by
      rintro rfl
      cases h
    rw [if_neg other]
    exact length_update ..
  · split
    · exact List.length_append
    · rfl

/-- Scopes do not vanish. -/
theorem length_le_apply (r : Relay) (a : Action) :
    r.scopes.states.length ≤ (r.apply a).scopes.states.length := by
  rw [length_apply]
  exact Nat.le_add_right _ _

/-- An action is seen in its own scope, and in no other. -/
theorem get_apply (known : i < r.scopes.states.length) (a : Action) :
    (r.apply a).scopes.get i =
      if a.concerns i then a.effect (r.scopes.get i) else r.scopes.get i := by
  rw [scopes_apply]
  cases h : a.scope? with
  | some j =>
    by_cases hj : j = i
    · subst hj
      have mine : a.concerns j = true := decide_eq_true h
      rw [if_pos mine]
      exact r.scopes.get_put_self _ known
    · have other : a.concerns i = false :=
        decide_eq_false fun he => hj (Option.some.inj (h.symm.trans he))
      rw [other]
      exact r.scopes.get_put_ne _ hj
  | none =>
    have other : a.concerns i = false := decide_eq_false fun he => by cases h.symm.trans he
    rw [other]
    dsimp only
    split
    · simp only [Scopes.get, List.getElem?_append_left known]
      rfl
    · rfl

/-- After a run a scope is what its own actions have made of it. -/
theorem get_run (known : i < r.scopes.states.length) (actions : List Action) :
    (r.run actions).scopes.get i =
      (actions.filter (Action.concerns i)).foldl Action.effect (r.scopes.get i) := by
  induction actions generalizing r with
  | nil => rfl
  | cons a rest ih =>
    have later := ih (Nat.lt_of_lt_of_le known (r.length_le_apply a))
    change ((r.apply a).run rest).scopes.get i = _
    rw [later, get_apply known, List.filter_cons]
    split
    · rfl
    · rfl

/-- A scope that is made is empty. -/
theorem get_create (r : Relay) :
    (r.apply .create).scopes.get r.scopes.states.length = .cleared := by
  simp only [apply, createScope, Scopes.create, Scopes.get, List.getElem?_concat_length,
    Option.getD_some]

end EventRelay.Relay
