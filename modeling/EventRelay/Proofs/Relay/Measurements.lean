import Mathlib.Data.List.DropRight
import EventRelay.Proofs.Relay.Isolation
import EventRelay.Proofs.Relay.Slots
import EventRelay.Proofs.Request.Latency

/-!
# What the recorded latencies of a request come to

Whatever tasks do in whatever scopes, the latencies of a request are told by the actions in its own
scope since its metrics were last cleared: by the last record of the total, and by the last record
of each stage. A recorded total is taken as it is. Without one the total is the exact sum over the
names of the stages, cut at 64 bits, so that the order in which stages were recorded does not
matter.
-/

namespace EventRelay.Relay

open Request (Latency Scope ScopeId)

namespace Action

/-- Whether an action clears the metrics of its scope. -/
def unmeasures : Action → Bool
  | .perform _ .resetMetrics => true
  | .begin .. => true
  | .finish _ => true
  | .clear _ => true
  | _ => false

/-- The total that an action records. -/
def total? : Action → Option Nat
  | .perform _ (.setTotal millis) => some millis
  | _ => none

/-- The stage that an action records, with its latency. -/
def stage? : Action → Option (String × Nat)
  | .perform _ (.setStage name millis) => some (name, millis)
  | _ => none

/-- The latency that an action records for the stage of a name. -/
def millis? (name : String) (a : Action) : Option Nat :=
  (a.stage?.filter (·.1 = name)).map Prod.snd

end Action

/-! ## The last records -/

/-- The actions since the metrics were last cleared. -/
def sinceCleared (past : List Action) : List Action := past.rtakeWhile (! ·.unmeasures)

/-- The value that was recorded last since the metrics were cleared. -/
def lastRecord (value? : Action → Option Nat) (past : List Action) : Option Nat :=
  ((sinceCleared past).filterMap value?).getLast?

/-- The names of the stages that were recorded since the metrics were cleared. -/
def recordedStages (past : List Action) : Finset String :=
  (((sinceCleared past).filterMap Action.stage?).map Prod.fst).toFinset

/-- The same was recorded last in two histories: for the total, and for each stage. -/
structure SameRecords (past past' : List Action) : Prop where
  total : lastRecord Action.total? past = lastRecord Action.total? past'
  stage : ∀ name, lastRecord (Action.millis? name) past = lastRecord (Action.millis? name) past'

variable {past : List Action} {l : Latency} {a : Action} {name : String}

/-- When the metrics are cleared no record is left. -/
theorem lastRecord_of_clears (clears : a.unmeasures = true) (value? : Action → Option Nat) :
    lastRecord value? (past ++ [a]) = none := by
  rw [lastRecord, sinceCleared, List.rtakeWhile_concat_neg _ _ _ (by simp [clears])]
  rfl

/-- Otherwise a further action adds a record or leaves the last one. -/
theorem lastRecord_of_kept (kept : a.unmeasures = false) (value? : Action → Option Nat) :
    lastRecord value? (past ++ [a]) = (value? a).or (lastRecord value? past) := by
  rw [lastRecord, sinceCleared, List.rtakeWhile_concat_pos _ _ _ (by simp [kept]),
    List.filterMap_append, List.getLast?_append]
  refine congrArg (Option.or · _) ?_
  cases value : value? a <;> simp [value]

theorem millis?_setStage (scope : Option ScopeId) (own name : String) (millis : Nat) :
    Action.millis? name (.perform scope (.setStage own millis)) =
      if own = name then some millis else none := by
  rw [Action.millis?, Action.stage?, Option.filter_some]
  split <;> simp_all

/-- An action records a latency for a name exactly if it records the stage of that name. -/
theorem isSome_millis?_iff :
    (a.millis? name).isSome = true ↔ ∃ millis, a.stage? = some (name, millis) := by
  rw [Action.millis?, Option.isSome_map, Option.isSome_filter]
  cases a.stage? with
  | none => simp
  | some stage =>
    obtain ⟨own, millis⟩ := stage
    simp

/-- The recorded stages are those for which there is a last record. -/
theorem mem_recordedStages_iff :
    name ∈ recordedStages past ↔ (lastRecord (Action.millis? name) past).isSome = true := by
  have some_record : (lastRecord (Action.millis? name) past).isSome = true ↔
      ∃ a ∈ sinceCleared past, (a.millis? name).isSome = true := by
    rw [lastRecord, List.getLast?_isSome, ne_eq, List.filterMap_eq_nil_iff]
    simp [Option.isSome_iff_ne_none]
  rw [some_record, recordedStages, List.mem_toFinset, List.mem_map]
  simp only [isSome_millis?_iff, List.mem_filterMap]
  constructor
  · rintro ⟨⟨own, millis⟩, ⟨a, member, stage⟩, rfl⟩
    exact ⟨a, member, millis, stage⟩
  · rintro ⟨a, member, millis, stage⟩
    exact ⟨(name, millis), ⟨a, member, stage⟩, rfl⟩

/-! ## What a history of actions leaves behind -/

/-- The latencies are those that a history of actions in their scope tells. -/
structure Recorded (past : List Action) (l : Latency) : Prop where
  ordered : Latency.Ordered l.stages
  explicit : l.explicit = lastRecord Action.total? past
  stage : ∀ name, l.stage? name = lastRecord (Action.millis? name) past

namespace Recorded

/-- Before anything is done nothing is recorded. -/
theorem start : Recorded [] {} := ⟨.nil, rfl, fun _ => rfl⟩

/-- An action that clears the metrics leaves no records. -/
theorem clear (clears : a.unmeasures = true) : Recorded (past ++ [a]) {} := by
  refine ⟨.nil, (lastRecord_of_clears clears _).symm, fun name => ?_⟩
  rw [lastRecord_of_clears clears]
  rfl

/-- An action that neither clears the metrics nor records a latency leaves the records alone. -/
theorem keep (told : Recorded past l) (kept : a.unmeasures = false) (total : a.total? = none)
    (stage : a.stage? = none) : Recorded (past ++ [a]) l := by
  refine ⟨told.ordered, ?_, fun name => ?_⟩
  · rw [lastRecord_of_kept kept, total, told.explicit, Option.none_or]
  · have none : a.millis? name = none := by
      rw [Action.millis?, stage]
      rfl
    rw [lastRecord_of_kept kept, none, told.stage, Option.none_or]

/-- A total that is recorded takes the place of an earlier one. -/
theorem setTotal (told : Recorded past l) (scope : Option ScopeId) (millis : Nat) :
    Recorded (past ++ [.perform scope (.setTotal millis)]) { l with explicit := some millis } := by
  refine ⟨told.ordered, ?_, fun name => ?_⟩
  · rw [lastRecord_of_kept rfl]
    rfl
  · rw [lastRecord_of_kept rfl]
    exact told.stage name

/-- A stage that is recorded takes the place of an earlier one of its name. -/
theorem setStage (told : Recorded past l) (scope : Option ScopeId) (name : String) (millis : Nat) :
    Recorded (past ++ [.perform scope (.setStage name millis)]) (l.setStage name millis) := by
  refine ⟨Latency.ordered_insert told.ordered, ?_, fun other => ?_⟩
  · rw [lastRecord_of_kept rfl]
    exact told.explicit
  · rw [lastRecord_of_kept rfl, millis?_setStage, Latency.stage?, Latency.setStage]
    split
    · next same =>
      subst same
      rw [Latency.lookup_insert]
      rfl
    · next different =>
      rw [Latency.lookup_insert_of_ne (Ne.symm different)]
      exact told.stage other

/-- What an action in a scope does to the records is what the history tells after it. -/
theorem effect {s : Scope} (told : Recorded past s.metrics.latency) (a : Action) :
    Recorded (past ++ [a]) (a.effect s).metrics.latency := by
  cases a with
  | perform scope op =>
    cases op with
    | setTotal millis => exact told.setTotal scope millis
    | setStage name millis => exact told.setStage scope name millis
    | resetMetrics => exact clear rfl
    | _ => exact told.keep rfl rfl rfl
  | begin scope names headers => exact clear rfl
  | finish scope => exact clear rfl
  | clear scope => exact clear rfl
  | create => exact told.keep rfl rfl rfl
  | emit scope call => exact told.keep rfl rfl rfl
  | publisher p => exact told.keep rfl rfl rfl

/-- A total that was recorded is the total. -/
theorem total_of_explicit (told : Recorded past l) {millis : Nat}
    (last : lastRecord Action.total? past = some millis) : l.total = millis := by
  rw [Latency.total, told.explicit, last]
  rfl

/-- Without a recorded total the total is the exact sum over the stages, cut at 64 bits. -/
theorem total_of_stages (told : Recorded past l) (none : lastRecord Action.total? past = none) :
    l.total = min Text.maxU64
      (∑ name ∈ recordedStages past, (lastRecord (Action.millis? name) past).getD 0) := by
  have names (n : String) : n ∈ recordedStages past ↔ (l.stage? n).isSome = true := by
    rw [told.stage, mem_recordedStages_iff]
  rw [Latency.total_eq_sum told.ordered (told.explicit.trans none) names]
  simp only [told.stage]

/-- Where the same was recorded last, the total is the same. -/
theorem total_eq_of_sameRecords {past' : List Action} {l' : Latency} (told : Recorded past l)
    (told' : Recorded past' l') (same : SameRecords past past') : l.total = l'.total := by
  have stages : recordedStages past = recordedStages past' := by
    ext name
    rw [mem_recordedStages_iff, mem_recordedStages_iff, same.stage]
  cases last : lastRecord Action.total? past' with
  | some millis =>
    rw [told.total_of_explicit (same.total.trans last), told'.total_of_explicit last]
  | none =>
    rw [told.total_of_stages (same.total.trans last), told'.total_of_stages last, stages]
    simp only [same.stage]

end Recorded

/-! ## Scopes of a trace -/

/-- Whether a deed is done in a scope that has been made. -/
def Deed.within (i : ScopeId) (d : Deed) : Bool :=
  d.move.action.concerns i && i < d.before.scopes.states.length

/-- The actions in a scope from when it was made, in order. -/
def actionsIn (i : ScopeId) (done : List Deed) : List Action :=
  (done.filter (Deed.within i)).map (·.move.action)

/-- The latencies in a scope. -/
def latencyIn (r : Relay) (i : ScopeId) : Latency := (r.scopes.get i).metrics.latency

variable {r t : Relay} {done : List Deed} {i : ScopeId}

theorem actionsIn_concat (i : ScopeId) (done : List Deed) (d : Deed) :
    actionsIn i (done ++ [d]) =
      actionsIn i done ++ if d.within i then [d.move.action] else [] := by
  rw [actionsIn, List.filter_append, List.map_append, List.filter_singleton]
  cases d.within i <;> rfl

/-- A move keeps the latencies in a scope what the actions in the scope tell. -/
theorem Recorded.move (told : Recorded past (t.latencyIn i)) (m : Move) :
    Recorded (past ++ if Deed.within i ⟨m, t⟩ then [m.action] else [])
      ((t.apply m.action).latencyIn i) := by
  by_cases known : i < t.scopes.states.length
  · rw [latencyIn, get_apply known]
    cases mine : m.action.concerns i with
    | true =>
      rw [if_pos (by simp [Deed.within, mine, known]), if_pos rfl]
      exact told.effect m.action
    | false =>
      rw [if_neg (by simp [Deed.within, mine]), List.append_nil]
      exact told
  · -- The scope is not there yet, so that it is empty before and after.
    rw [if_neg (by simp [Deed.within, known]), List.append_nil, latencyIn,
      get_apply_unknown known]
    rwa [latencyIn, get_unknown known] at told

/-- At every moment of a trace the latencies in a scope are told by the actions in it. -/
theorem Trace.recorded (trace : Trace r done t) (unmeasured : r.latencyIn i = {}) :
    Recorded (actionsIn i done) (t.latencyIn i) := by
  induction trace with
  | start => exact unmeasured ▸ .start
  | move m _ ih =>
    rw [actionsIn_concat]
    exact ih.move m
  | aside scopes _ ih =>
    rw [latencyIn, scopes]
    exact ih

/-- The total latency of a request, in whatever order any number of tasks take their steps. If a
total was recorded since the metrics were last cleared, the last one is the total. Otherwise the
total is the exact sum, over the names of the stages that were recorded, of what was recorded last
for each, cut at 64 bits. So it is the same wherever the same was recorded last, in any order. -/
theorem total_latency_is_last_record_or_bounded_sum :
    (∀ {r t : Relay} {done : List Deed} {i : ScopeId}, Trace r done t → r.latencyIn i = {} →
      (t.perform (some i) .readLatency).2 = .latency (t.latencyIn i) ∧
      (∀ millis, lastRecord Action.total? (actionsIn i done) = some millis →
        (t.latencyIn i).total = millis) ∧
      (lastRecord Action.total? (actionsIn i done) = none →
        (t.latencyIn i).total = min (2 ^ 64 - 1)
          (∑ name ∈ recordedStages (actionsIn i done),
            (lastRecord (Action.millis? name) (actionsIn i done)).getD 0))) ∧
    ∀ {r t r' t' : Relay} {done done' : List Deed} {i j : ScopeId},
      Trace r done t → Trace r' done' t' → r.latencyIn i = {} → r'.latencyIn j = {} →
      SameRecords (actionsIn i done) (actionsIn j done') →
      (t.latencyIn i).total = (t'.latencyIn j).total := by
  refine ⟨fun trace unmeasured => ?_, fun trace trace' unmeasured unmeasured' same => ?_⟩
  · have told := trace.recorded unmeasured
    exact ⟨rfl, fun _ => told.total_of_explicit, told.total_of_stages⟩
  · exact (trace.recorded unmeasured).total_eq_of_sameRecords (trace'.recorded unmeasured') same

/-- Three requests are measured: one starts over after a total, records a stage twice and another
with the greatest latency; one has a total; one records the stages of the first in another order. -/
def measuring : List Move :=
  [⟨none, .create⟩, ⟨none, .create⟩, ⟨none, .create⟩,
    ⟨some 0, .perform (some 0) (.setTotal 5)⟩,
    ⟨some 0, .perform (some 0) .resetMetrics⟩,
    ⟨some 0, .perform (some 0) (.setStage "search" 30)⟩,
    ⟨some 1, .perform (some 1) (.setStage "search" 1)⟩,
    ⟨some 2, .perform (some 2) (.setStage "search" 90)⟩,
    ⟨some 0, .perform (some 0) (.setStage "answer" Text.maxU64)⟩,
    ⟨some 1, .perform (some 1) (.setTotal 7)⟩,
    ⟨some 2, .perform (some 2) (.setStage "answer" Text.maxU64)⟩,
    ⟨some 0, .perform (some 0) (.setStage "search" 90)⟩]

/-- In the first and in the third request the same was recorded last. -/
private theorem sameRecords_measuring :
    SameRecords (actionsIn 2 (unused.deeds measuring)) (actionsIn 0 (unused.deeds measuring)) := by
  have among : ∀ name ∈ recordedStages (actionsIn 0 (unused.deeds measuring)),
      lastRecord (Action.millis? name) (actionsIn 2 (unused.deeds measuring)) =
        lastRecord (Action.millis? name) (actionsIn 0 (unused.deeds measuring)) := by decide
  have stages : recordedStages (actionsIn 2 (unused.deeds measuring)) =
      recordedStages (actionsIn 0 (unused.deeds measuring)) := by decide
  refine ⟨by decide, fun name => ?_⟩
  by_cases member : name ∈ recordedStages (actionsIn 0 (unused.deeds measuring))
  · exact among name member
  · have absent := stages ▸ member
    rw [mem_recordedStages_iff, Option.not_isSome_iff_eq_none] at member absent
    rw [member, absent]

/-- The sum of the first request does not fit 64 bits, the second has its total, and the third has
the total of the first. -/
theorem three_requests_are_measured :
    Trace unused (unused.deeds measuring) (unused.after measuring) ∧
      (∀ i, unused.latencyIn i = {}) ∧
      ((unused.after measuring).latencyIn 0).total = 2 ^ 64 - 1 ∧
      ((unused.after measuring).latencyIn 1).total = 7 ∧
      SameRecords (actionsIn 2 (unused.deeds measuring)) (actionsIn 0 (unused.deeds measuring)) ∧
      ((unused.after measuring).latencyIn 2).total =
        ((unused.after measuring).latencyIn 0).total := by
  obtain ⟨measured, alike⟩ := total_latency_is_last_record_or_bounded_sum
  have trace : Trace unused (unused.deeds measuring) (unused.after measuring) :=
    Trace.start.moves measuring
  have unmeasured (i : ScopeId) : unused.latencyIn i = {} := by
    rw [latencyIn, get_unknown (Nat.not_lt_zero i)]
    rfl
  refine ⟨trace, unmeasured, ?_, ?_, sameRecords_measuring,
    alike trace trace (unmeasured 2) (unmeasured 0) sameRecords_measuring⟩
  · rw [(measured trace (unmeasured 0)).2.2 (by decide)]
    decide
  · exact (measured trace (unmeasured 1)).2.1 7 (by decide)

end EventRelay.Relay
