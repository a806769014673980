import EventRelay.Proofs.Relay.Isolation

/-!
# The boundary of a request

Whatever a scope held before, a request begins in it with the correlation of its headers and nothing
else, and it leaves the scope empty. From then on, until a request begins there or a correlation is
set, every guard call in the scope is over before the sink is asked: the slots are free again, but
no event can be built without a correlation. Both ends of a request are reported, and nothing else
is reported as one of them.
-/

namespace EventRelay

open Request (Scope ScopeId Scopes)

/-- Without a correlation a call is over before the sink is asked. -/
theorem Guards.judge_unknown {s : Scope} (unknown : s.correlation = {}) (call : Call)
    (hasSink : Bool) (id : EventId) (time : Instant) :
    (judge call (some s) hasSink id time).decision = .over .duplicate ∨
      (judge call (some s) hasSink id time).decision = .over .missingContext := by
  have refused : call.requirement s.correlation = .error (.missingCorrelation "traceId") := by
    rw [unknown, Call.requirement]
    cases call.kind <;> rfl
  simp only [judge, refused]
  split
  · exact .inl rfl
  · exact .inr rfl

namespace Relay

variable {r t : Relay} {i : ScopeId} {done early between late : List Deed} {d e : Deed}

namespace Action

/-- Whether an action gives a correlation to a scope. -/
def informs (i : ScopeId) : Action → Bool
  | .begin j _ _ => j = i
  | .perform (some j) (.setCorrelation _) => j = i
  | _ => false

/-- Whether an action empties a scope. -/
def empties (i : ScopeId) : Action → Bool
  | .finish j => j = i
  | .clear j => j = i
  | _ => false

/-- In its own scope an action that gives no correlation leaves an absent one absent. -/
theorem correlation_effect {a : Action} {s : Scope} (mine : a.concerns i = true)
    (other : a.informs i = false) (unknown : s.correlation = {}) :
    (a.effect s).correlation = {} := by
  cases a with
  | perform scope op =>
    obtain rfl : scope = some i := of_decide_eq_true mine
    cases op with
    | setCorrelation c => exact absurd (decide_eq_true rfl) (ne_true_of_eq_false other)
    | resetCorrelation => rfl
    | _ => exact unknown
  | begin j names headers =>
    have own : j = i := Option.some.inj (of_decide_eq_true mine)
    exact absurd (decide_eq_true own) (ne_true_of_eq_false other)
  | finish j => rfl
  | clear j => rfl
  | _ => exact unknown

end Action

/-- A request begins in a scope with the correlation of its headers and nothing else. -/
theorem get_begin (known : i < r.scopes.states.length) (names : Request.HeaderNames)
    (headers : Request.Headers) :
    (r.beginRequest i names headers).scopes.get i = .opened (headers.extract names).1 := by
  have mine : (Action.begin i names headers).concerns i = true := decide_eq_true rfl
  have begun := get_apply known (.begin i names headers)
  rwa [if_pos mine] at begun

/-- A scope that is cleared is empty. -/
theorem get_put_cleared (s : Scopes) (i : ScopeId) : (s.put i .cleared).get i = .cleared := by
  by_cases known : i < s.states.length
  · exact s.get_put_self _ known
  · have same : (s.put i .cleared).states = s.states :=
      List.set_eq_of_length_le (Nat.le_of_not_lt known)
    rw [Scopes.get, same, List.getElem?_eq_none (Nat.le_of_not_lt known)]
    rfl

/-- An action that empties a scope leaves it empty. -/
theorem get_empties {a : Action} (empties : a.empties i = true) (r : Relay) :
    (r.apply a).scopes.get i = .cleared := by
  cases a with
  | finish j =>
    obtain rfl : j = i := of_decide_eq_true empties
    exact get_put_cleared ..
  | clear j =>
    obtain rfl : j = i := of_decide_eq_true empties
    exact get_put_cleared ..
  | _ => contradiction

/-- An action that gives no correlation to a scope leaves an absent one absent. -/
theorem correlation_apply {a : Action} (other : a.informs i = false)
    (unknown : (r.scopes.get i).correlation = {}) :
    ((r.apply a).scopes.get i).correlation = {} := by
  by_cases known : i < r.scopes.states.length
  · rw [get_apply known]
    split
    · next mine => exact Action.correlation_effect mine other unknown
    · exact unknown
  · rw [get_apply_unknown known]
    rfl

/-- Without a correlation in its scope a guard call asks the sink for nothing. -/
theorem asks_unknown (unknown : (r.scopes.get i).correlation = {}) (call : Guards.Call) :
    r.asks (.emit (some i) call) = [] := by
  rw [asks_emit]
  rcases Guards.judge_unknown unknown call (r.target ≠ .none) ⟨r.serial⟩ ⟨r.now⟩ with h | h
  all_goals
    rw [ruling, Scopes.seen, Option.map_some, h]
    rfl

namespace Trace

/-- The last of several deeds is the one at which they are split, or one of those after it. -/
private theorem split_concat (split : done ++ [e] = early ++ d :: late) :
    (late = [] ∧ done = early ∧ e = d) ∨
      ∃ rest, late = rest ++ [e] ∧ done = early ++ d :: rest := by
  rcases List.eq_nil_or_concat late with rfl | ⟨rest, last, rfl⟩
  · obtain ⟨same, h⟩ := List.append_inj' split rfl
    exact .inl ⟨rfl, same, (List.cons.inj h).1⟩
  · rw [List.concat_eq_append, ← List.cons_append, ← List.append_assoc] at split
    obtain ⟨same, h⟩ := List.append_inj' split rfl
    exact .inr ⟨rest, (List.cons.inj h).1 ▸ List.concat_eq_append, same⟩

/-- A deed of a trace found the relay as the deeds before it had left it. -/
theorem upTo (trace : Trace r done t) (split : done = early ++ d :: late) :
    Trace r early d.before := by
  induction trace generalizing late with
  | start => simp only [List.nil_eq, List.append_eq_nil_iff, reduceCtorEq, and_false] at split
  | aside _ _ ih => exact ih split
  | move m trace ih =>
    obtain ⟨-, rfl, rfl⟩ | ⟨rest, -, earlier⟩ := split_concat split
    · exact trace
    · exact ih earlier

/-- After a scope was emptied its correlation is absent, as long as nobody gives it one. -/
theorem unknown (trace : Trace r done t) (split : done = early ++ d :: between)
    (emptied : d.move.action.empties i = true)
    (uninformed : ∀ m ∈ between, m.move.action.informs i = false) :
    (t.scopes.get i).correlation = {} := by
  induction trace generalizing between with
  | start => simp only [List.nil_eq, List.append_eq_nil_iff, reduceCtorEq, and_false] at split
  | aside scopes _ ih => exact scopes ▸ ih split uninformed
  | @move _ t m _ ih =>
    obtain ⟨-, -, rfl⟩ | ⟨rest, rfl, earlier⟩ := split_concat split
    · exact congrArg Scope.correlation (get_empties emptied t)
    · rw [List.forall_mem_append, List.forall_mem_singleton] at uninformed
      exact correlation_apply uninformed.2 (ih earlier uninformed.1)

/-- After a scope was emptied, and as long as nobody gives it a correlation, no guard call in it
asks the sink for anything. -/
theorem silent (trace : Trace r done t) (split : done = early ++ d :: between ++ e :: late)
    (emptied : d.move.action.empties i = true)
    (uninformed : ∀ m ∈ between, m.move.action.informs i = false) {call : Guards.Call}
    (emits : e.move.action = .emit (some i) call) : e.asked = [] := by
  have unknown := (trace.upTo split).unknown rfl emptied uninformed
  rw [Deed.asked, emits]
  exact asks_unknown unknown call

end Trace

/-! ## Reports -/

/-- Whether an observation is the report that a request begins. -/
def Observation.opens : Observation → Bool
  | .request (.opened _) => true
  | _ => false

/-- Whether an observation is the report that a request ends. -/
def Observation.closes : Observation → Bool
  | .request .closed => true
  | _ => false

/-- How many requests have been reported to begin. -/
def begun (r : Relay) : Nat := (r.history.filter Observation.opens).length

/-- How many requests have been reported to end. -/
def ended (r : Relay) : Nat := (r.history.filter Observation.closes).length

/-- From one relay to another no request is reported to begin or to end. -/
structure Still (r t : Relay) : Prop where
  begun : t.begun = r.begun
  ended : t.ended = r.ended

namespace Still

variable {u : Relay}

/-- Nothing is observed. -/
theorem of_history (same : t.history = r.history) : Still r t :=
  ⟨congrArg (fun os => (List.filter _ os).length) same,
    congrArg (fun os => (List.filter _ os).length) same⟩

theorem refl (r : Relay) : Still r r := of_history rfl

theorem trans (first : Still r t) (next : Still t u) : Still r u :=
  ⟨next.begun.trans first.begun, next.ended.trans first.ended⟩

/-- Something else is observed. -/
theorem observe (r : Relay) {o : Observation} (other : o.opens = false ∧ o.closes = false) :
    Still r (r.observe o) :=
  ⟨congrArg List.length (List.filter_cons_of_neg (ne_true_of_eq_false other.1)),
    congrArg List.length (List.filter_cons_of_neg (ne_true_of_eq_false other.2))⟩

theorem observeAll (r : Relay) {os : List Observation}
    (others : ∀ o ∈ os, o.opens = false ∧ o.closes = false) : Still r (r.observeAll os) := by
  induction os generalizing r with
  | nil => exact refl r
  | cons o rest ih =>
    obtain ⟨first, later⟩ := List.forall_mem_cons.mp others
    exact (observe r first).trans (ih (r.observe o) later)

theorem setPublisher (r : Relay) (p : Publisher.State) : Still r (r.setPublisher p) := by
  have fresh (os : List Publisher.Observation) (f : Observation → Bool)
      (others : ∀ o, f (.publisher o) = false) :
      (os.map Observation.publisher ++ r.history).filter f = r.history.filter f := by
    have none : (os.map Observation.publisher).filter f = [] :=
      List.filter_eq_nil_iff.mpr
        (List.forall_mem_map.mpr fun o _ => ne_true_of_eq_false (others o))
    rw [List.filter_append, none, List.nil_append]
  exact ⟨congrArg List.length (fresh _ _ fun _ => rfl),
    congrArg List.length (fresh _ _ fun _ => rfl)⟩

/-- Outside any scope an operation reports at most that it is without effect. -/
theorem perform (r : Relay) (scope : Option ScopeId) (op : Request.Operation) :
    Still r (r.perform scope op).1 := by
  refine .trans (t := { r with scopes := (r.scopes.perform scope op).1 }) (of_history rfl) ?_
  refine observeAll _ (List.forall_mem_map.mpr ?_)
  intro n reported
  split at reported
  · cases op with
    | setCorrelation c =>
      obtain rfl := List.mem_singleton.mp reported
      exact ⟨rfl, rfl⟩
    | _ => contradiction
  · contradiction

theorem offer (r : Relay) (e : Event) : Still r (r.offer e).1 := by
  unfold Relay.offer
  split
  · exact refl r
  · exact setPublisher r _
  · exact ⟨rfl, rfl⟩

/-- A guard reports what becomes of its call. -/
theorem emit (r : Relay) (scope : Option ScopeId) (call : Guards.Call) :
    Still r (r.emit scope call).1 := by
  have decided : Still r (r.decided scope call) := by
    have reports : ∀ o ∈ (r.ruling scope call).notices.map Observation.guard,
        o.opens = false ∧ o.closes = false := List.forall_mem_map.mpr fun _ _ => ⟨rfl, rfl⟩
    unfold Relay.decided
    dsimp only
    split
    · exact .trans (t := r.setScope _ _) (of_history rfl) (observeAll _ reports)
    · exact observeAll _ reports
  cases h : (r.ruling scope call).decision with
  | «over» outcome =>
    rw [r.emit_over h]
    exact decided.trans (observe _ ⟨rfl, rfl⟩)
  | offer e =>
    obtain ⟨t, accepted, offered, he⟩ := r.emit_offer h
    have numbered : Still r { r.decided scope call with
        serial := (r.decided scope call).serial + 1 } := decided.trans (of_history rfl)
    have asked := numbered.trans (offer _ e)
    rw [offered] at asked
    rw [he]
    refine asked.trans ?_
    exact (observe t ⟨rfl, rfl⟩).trans (observe _ ⟨rfl, rfl⟩)

end Still

/-- The headers of a request give rise to no report of its beginning or its end. -/
private theorem extract_reports (names : Request.HeaderNames) (headers : Request.Headers) :
    ∀ n ∈ (headers.extract names).2, (Observation.request n).opens = false ∧
      (Observation.request n).closes = false := by
  intro n reported
  simp only [Request.Headers.extract] at reported
  split at reported
  · contradiction
  · split at reported
    · contradiction
    · obtain rfl := List.mem_singleton.mp reported
      exact ⟨rfl, rfl⟩

/-- The beginning of a request is reported once. -/
theorem reports_begin (r : Relay) (i : ScopeId) (names : Request.HeaderNames)
    (headers : Request.Headers) :
    (r.beginRequest i names headers).begun = r.begun + 1 ∧
      (r.beginRequest i names headers).ended = r.ended := by
  have extracted := Still.observeAll r (List.forall_mem_map.mpr (extract_reports names headers))
  exact ⟨congrArg (· + 1) extracted.begun, extracted.ended⟩

/-- The end of a request is reported once. -/
theorem reports_end (r : Relay) (i : ScopeId) :
    (r.endRequest i).begun = r.begun ∧ (r.endRequest i).ended = r.ended + 1 := ⟨rfl, rfl⟩

end Relay

end EventRelay
