import EventRelay.Proofs.Relay.Asking

/-!
# Requests side by side

Tasks act on a relay in any order, each bound to a scope or to none. A scope does not notice what is
done in the others: its state and everything that is read in it are those of the run in which only
its own moves are made. The moves of a task that is bound to no scope leave all scopes as they are.
-/

namespace EventRelay.Relay

open Request (Operation Reading Scope ScopeId)

/-- An action of a task. -/
structure Move where
  /-- The scope that the task is bound to. -/
  scope : Option ScopeId
  /-- What the task does. -/
  action : Action
  deriving DecidableEq, Repr

/-- A move that was made. -/
structure Deed where
  /-- The move. -/
  move : Move
  /-- The relay that it found. -/
  before : Relay

/-- The relay after moves with nothing in between. -/
def after (r : Relay) (moves : List Move) : Relay := r.run (moves.map Move.action)

/-- The deeds of moves with nothing in between. -/
def deeds (r : Relay) : List Move → List Deed
  | [] => []
  | m :: rest => ⟨m, r⟩ :: (r.apply m.action).deeds rest

namespace Move

/-- Whether a move is made in a scope, or by somebody who holds the scope and addresses it. -/
def under (i : ScopeId) (m : Move) : Bool := m.scope = some i || m.action.concerns i

/-- The moves under a scope, together with those that make scopes. -/
def share (i : ScopeId) (moves : List Move) : List Move :=
  moves.filter fun m => m.under i || m.action = .create

theorem share_concat (i : ScopeId) (moves : List Move) (m : Move) :
    share i (moves ++ [m]) =
      share i moves ++ if m.under i || m.action = .create then [m] else [] := by
  rw [share, List.filter_append, List.filter_cons]
  rfl

/-- All actions that concern a scope are in its share. -/
theorem filter_share (i : ScopeId) (moves : List Move) :
    ((share i moves).map Move.action).filter (Action.concerns i) =
      (moves.map Move.action).filter (Action.concerns i) := by
  rw [List.filter_map, List.filter_map, share, List.filter_filter]
  refine congrArg (List.map Move.action) (List.filter_congr fun m _ => ?_)
  change (m.action.concerns i && (m.under i || m.action = .create)) = m.action.concerns i
  cases mine : m.action.concerns i with
  | false => rfl
  | true => rw [under, mine, Bool.or_true, Bool.true_or, Bool.true_and]

end Move

namespace Deed

/-- The relay after a deed. -/
def after (d : Deed) : Relay := d.before.apply d.move.action

/-- What a deed tells a task that is bound to a scope, or to none. -/
def told (scope : Option ScopeId) (d : Deed) : Option Reading :=
  match d.move.action with
  | .perform own op => if own = scope then some (d.before.perform own op).2 else none
  | _ => none

/-- The events that the sink is asked to take in a deed. -/
def asked (d : Deed) : List Event := d.before.asks d.move.action

end Deed

/-- Tasks make moves in any order; whatever else happens leaves the scopes as they are. -/
inductive Trace (r : Relay) : List Deed → Relay → Prop
  /-- Nothing has happened. -/
  | start : Trace r [] r
  /-- A task makes a move. -/
  | move {done : List Deed} {t : Relay} (m : Move) (trace : Trace r done t) :
    Trace r (done ++ [⟨m, t⟩]) (t.apply m.action)
  /-- Something else happens. -/
  | aside {done : List Deed} {t u : Relay} (scopes : u.scopes = t.scopes)
    (trace : Trace r done t) : Trace r done u

variable {r t u : Relay} {i : ScopeId} {done : List Deed}

/-- A trace goes on with moves that have nothing in between. -/
theorem Trace.moves (trace : Trace r done t) (moves : List Move) :
    Trace r (done ++ t.deeds moves) (t.after moves) := by
  induction moves generalizing done t with
  | nil => rwa [deeds, List.append_nil]
  | cons m rest ih =>
    have later := ih (trace.move m)
    rwa [List.append_assoc] at later

theorem after_concat (r : Relay) (moves : List Move) (m : Move) :
    r.after (moves ++ [m]) = (r.after moves).apply m.action := by
  rw [after, run, List.map_append, List.foldl_append]
  rfl

theorem deeds_concat (r : Relay) (moves : List Move) (m : Move) :
    r.deeds (moves ++ [m]) = r.deeds moves ++ [⟨m, r.after moves⟩] := by
  induction moves generalizing r with
  | nil => rfl
  | cons first rest ih => exact congrArg (_ :: ·) (ih (r.apply first.action))

/-- A scope that was not made looks empty. -/
theorem get_unknown (unknown : ¬ i < r.scopes.states.length) : r.scopes.get i = .cleared := by
  rw [Request.Scopes.get, List.getElem?_eq_none (Nat.le_of_not_lt unknown)]
  rfl

/-- As long as a scope is not made, nothing shows in it. -/
theorem get_apply_unknown (unknown : ¬ i < r.scopes.states.length) (a : Action) :
    (r.apply a).scopes.get i = .cleared := by
  by_cases later : i < (r.apply a).scopes.states.length
  · -- The action makes the scope.
    rw [length_apply] at later
    by_cases made : a = .create
    · subst made
      rw [if_pos rfl] at later
      obtain rfl : i = r.scopes.states.length :=
        Nat.le_antisymm (Nat.le_of_lt_succ later) (Nat.le_of_not_lt unknown)
      exact r.get_create
    · rw [if_neg made] at later
      contradiction
  · exact get_unknown later

/-- Two relays with the same number of scopes that agree on one of them. -/
structure Alike (i : ScopeId) (t u : Relay) : Prop where
  length : t.scopes.states.length = u.scopes.states.length
  state : t.scopes.get i = u.scopes.get i

namespace Alike

/-- An action does the same to a scope in both relays. -/
theorem apply (same : Alike i t u) (a : Action) : Alike i (t.apply a) (u.apply a) := by
  refine ⟨by rw [length_apply, length_apply, same.length], ?_⟩
  by_cases known : i < t.scopes.states.length
  · rw [get_apply known, get_apply (same.length ▸ known), same.state]
  · rw [get_apply_unknown known, get_apply_unknown (same.length ▸ known)]

/-- An action that neither concerns the scope nor makes one does not show. -/
theorem skip (same : Alike i t u) {a : Action} (other : a.concerns i = false)
    (made : a ≠ .create) : Alike i (t.apply a) u := by
  refine ⟨by rw [length_apply, if_neg made, same.length, Nat.add_zero], ?_⟩
  by_cases known : i < t.scopes.states.length
  · rw [get_apply known, other, ← same.state]
    rfl
  · rw [get_apply_unknown known, ← same.state, get_unknown known]

/-- The same is told in the scope. -/
theorem told (same : Alike i t u) (m : Move) :
    Deed.told (some i) ⟨m, t⟩ = Deed.told (some i) ⟨m, u⟩ := by
  cases h : m.action with
  | perform own op =>
    simp only [Deed.told, h]
    by_cases mine : own = some i
    · subst mine
      have reading : (t.perform (some i) op).2 = (u.perform (some i) op).2 :=
        congrArg op.reading same.state
      rw [reading]
    · rw [if_neg mine, if_neg mine]
  | _ => simp only [Deed.told, h]

end Alike

/-- Only a move under a scope tells something in it. -/
theorem told_eq_none {m : Move} (other : m.action.concerns i = false) (t : Relay) :
    Deed.told (some i) ⟨m, t⟩ = none := by
  cases h : m.action with
  | perform own op =>
    rw [h] at other
    simp only [Deed.told, h]
    exact if_neg fun mine => absurd (decide_eq_true mine) (ne_true_of_eq_false other)
  | _ => simp only [Deed.told, h]

/-- What has become of a scope, and what was told in it, is as if only the moves under that scope
had been made. -/
theorem Trace.isolated (trace : Trace r done t) (i : ScopeId) :
    Alike i t (r.after (Move.share i (done.map Deed.move))) ∧
    done.filterMap (Deed.told (some i)) =
      (r.deeds (Move.share i (done.map Deed.move))).filterMap (Deed.told (some i)) := by
  induction trace with
  | start => exact ⟨⟨rfl, rfl⟩, rfl⟩
  | aside scopes _ ih =>
    obtain ⟨same, told⟩ := ih
    exact ⟨⟨scopes ▸ same.length, scopes ▸ same.state⟩, told⟩
  | @move done t m _ ih =>
    obtain ⟨same, told⟩ := ih
    rw [List.map_append, List.map_singleton, Move.share_concat]
    by_cases kept : (m.under i || m.action = .create) = true
    · rw [if_pos kept, after_concat, deeds_concat, List.filterMap_append, List.filterMap_append,
        told]
      refine ⟨same.apply _, congrArg (_ ++ ·) ?_⟩
      simp only [List.filterMap_cons, same.told m]
    · obtain ⟨other, made⟩ : m.under i = false ∧ ¬ m.action = .create := by
        simpa only [Bool.or_eq_true, decide_eq_true_eq, not_or, Bool.not_eq_true] using kept
      have elsewhere : m.action.concerns i = false := (Bool.or_eq_false_iff.mp other).2
      rw [if_neg kept, List.append_nil, List.filterMap_append, told]
      refine ⟨same.skip elsewhere made, ?_⟩
      rw [List.filterMap_cons, told_eq_none elsewhere, List.filterMap_nil, List.append_nil]

/-- A scope that was there before is what the actions in it have made of it, one after the other. -/
theorem Trace.effect (trace : Trace r done t) (known : i < r.scopes.states.length) :
    t.scopes.get i = (((done.map Deed.move).map Move.action).filter (Action.concerns i)).foldl
      Action.effect (r.scopes.get i) := by
  rw [(trace.isolated i).1.state, after, get_run known, Move.filter_share]

/-- Outside any scope an operation tells what it would tell in an empty scope, or that there is no
scope. -/
theorem told_outside (d : Deed) {v : Reading} (told : d.told none = some v) :
    ∃ op, d.move.action = .perform none op ∧ (v = op.reading .cleared ∨ v = .claimed none) := by
  cases h : d.move.action with
  | perform own op =>
    simp only [Deed.told, h] at told
    obtain ⟨rfl, rfl⟩ : own = none ∧ (d.before.perform own op).2 = v := by
      simpa only [Option.ite_none_right_eq_some, Option.some.injEq] using told
    refine ⟨op, rfl, ?_⟩
    change op.outside = _ ∨ op.outside = _
    cases op with
    | claimChatTurn => exact .inr rfl
    | claim slot => exact .inr rfl
    | _ => exact .inl rfl
  | _ => simp only [Deed.told, h, reduceCtorEq] at told

/-- An action that concerns no scope changes none. -/
theorem get_apply_outside (r : Relay) {a : Action} (outside : a.scope? = none) (i : ScopeId) :
    (r.apply a).scopes.get i = r.scopes.get i := by
  by_cases known : i < r.scopes.states.length
  · have other : a.concerns i = false := by
      rw [Action.concerns, outside]
      rfl
    rw [get_apply known, other]
    rfl
  · rw [get_apply_unknown known, get_unknown known]

/-- An event that a guard asks the sink to take in a scope carries the correlation that the scope
has then. -/
theorem carries_of_asked {d : Deed} {call : Guards.Call}
    (emits : d.move.action = .emit (some i) call) {e : Event} (asked : e ∈ d.asked) :
    Guards.Carries e (d.before.scopes.get i).correlation := by
  rw [Deed.asked, emits, asks_emit] at asked
  cases h : (d.before.ruling (some i) call).decision with
  | «over» outcome =>
    rw [h] at asked
    contradiction
  | offer own =>
    rw [h] at asked
    obtain rfl := List.mem_singleton.mp asked
    obtain ⟨_, _, p, _, built⟩ := Guards.judge_offer h
    exact (Event.carries_of_build built).1

end EventRelay.Relay
