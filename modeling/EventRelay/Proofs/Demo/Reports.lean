import EventRelay.Demo
import EventRelay.Proofs.Demo.Arguments
import EventRelay.Proofs.Log.Thresholds
import EventRelay.Proofs.Publisher.Safeguards
import EventRelay.Proofs.Request.HeaderFields
import EventRelay.Proofs.Scenario.Publishers

/-!
# Reports of the demonstration

Every turn is a request of its own, under a trace that no other turn has. A demonstration is played
exactly if its arguments and variables are read, a publisher can be made of them, and its
conversation can be sent; otherwise nothing is sent. What it tells at the end are the counters of a
publisher after one of its runs, so they add up, and a publisher that is disabled has sent nothing.
-/

namespace EventRelay.Demo

open Request (HeaderNames Headers)

/-! ## Turns -/

/-- Zeros in front of a number do not change it. -/
theorem ofDigitChars_zeros (zeros : Nat) (ds : List Char) :
    Nat.ofDigitChars 10 (List.replicate zeros '0' ++ ds) 0 = Nat.ofDigitChars 10 ds 0 := by
  induction zeros with
  | zero => rfl
  | succ zeros ih => exact ih

/-- The name of a trace consists of a fixed word and the digits of its turn after some zeros. -/
theorem toList_traceName (turn : Nat) : ∃ zeros, (traceName turn).toList =
    "trace-".toList ++ (List.replicate zeros '0' ++ Nat.toDigits 10 turn) := by
  refine ⟨4 - (toString turn).length, ?_⟩
  simp only [traceName, String.toList_append, String.toList_ofList, List.append_assoc]
  exact congrArg _ (congrArg _ Nat.toList_repr)

/-- No two turns have the same trace. -/
theorem traceName_injective : Function.Injective traceName := by
  intro turn other same
  obtain ⟨zeros, name⟩ := toList_traceName turn
  obtain ⟨zeros', name'⟩ := toList_traceName other
  have texts := (congrArg String.toList same).trans name'
  have digits := List.append_cancel_left (name.symm.trans texts)
  have values := congrArg (Nat.ofDigitChars 10 · 0) digits
  simp only [ofDigitChars_zeros, Nat.ofDigitChars_ten_toDigits] at values
  exact values

/-- A header carries the name of a trace unchanged. -/
theorem plain_traceName (turn : Nat) : Headers.Plain (traceName turn) := by
  obtain ⟨zeros, name⟩ := toList_traceName turn
  refine Headers.plain_of_visible (fun empty => ?_) fun c member => ?_
  · rw [empty] at name
    contradiction
  · rw [name, List.mem_append, List.mem_append] at member
    have word : "trace-".toList.all (fun c => decide (33 ≤ c.toNat ∧ c.toNat ≤ 126)) = true := rfl
    rcases member with inside | zero | digit
    · exact of_decide_eq_true (List.all_eq_true.mp word c inside)
    · rw [List.eq_of_mem_replicate zero]
      decide
    · exact Headers.visible_of_isDigit (allDigits_toDigits turn c digit)

/-- What a header carries unchanged can be sent as its value. -/
theorem isHeaderValue_of_plain {s : String} (plain : Headers.Plain s) :
    Text.isHeaderValue s = true := by
  have ascii : ∀ c ∈ s.toList, c.toNat ≤ 127 := by
    intro c member
    rcases plain.chars c member with tab | ⟨_, visible⟩ <;> omega
  rw [Text.isHeaderValue, Text.utf8Bytes_of_ascii ascii, List.all_map, List.all_eq_true]
  intro c member
  have byte : (UInt8.ofNat c.toNat).toNat = c.toNat :=
    UInt8.toNat_ofNat_of_lt' (Nat.lt_succ_of_le (Nat.le_trans (ascii c member) (by decide)))
  have text := plain.chars c member
  rw [← byte] at text
  rw [Function.comp_apply]
  generalize UInt8.ofNat c.toNat = b at text ⊢
  rcases text with tab | ⟨low, high⟩
  · rw [show b = 9 from UInt8.toNat_inj.mp tab]
    rfl
  · rw [Text.isHeaderByte, Bool.or_eq_true, Bool.and_eq_true, decide_eq_true_eq, bne_iff_ne]
    refine .inr ⟨UInt8.le_iff_toNat_le.mpr low, ?_⟩
    rintro rfl
    contradiction

/-- The correlation of a turn. -/
def turnCorrelation (conversation : String) (turn : Nat) : Correlation where
  trace := some (traceName turn)
  user := some "demo-user"
  dept := some "support"
  conversation := some conversation
  turn := some (turn : Int)

theorem names_headers (conversation : String) (turn : Nat) :
    (headers conversation turn).map Prod.fst =
      ["x-trace-id", "x-user-id", "x-dept-id", "x-conversation-id", "x-turn-id"] := rfl

/-- The headers of a turn show its correlation, each field under its name. -/
theorem renders_headers (conversation : String) (turn : Nat) :
    Headers.Renders {} (turnCorrelation conversation turn) (headers conversation turn) := by
  have distinct : ((headers conversation turn).map Prod.fst).Pairwise
      fun a b => ¬ Headers.SameName a b := by
    rw [names_headers]
    decide
  have shows (i : Nat) {name text : String}
      (entry : (headers conversation turn)[i]? = some (name, Text.utf8Bytes text)) :=
    Headers.storedFirst_of_mem (List.mem_of_getElem? entry) distinct
  exact ⟨shows 0 rfl, shows 1 rfl, shows 2 rfl, shows 3 rfl, shows 4 rfl⟩

/-- Every turn fits into 64 bits. -/
theorem isInt64_of_le {turn : Nat} (le : turn ≤ maxTurns) : Headers.IsInt64 turn := by
  have low : Int64.minValue.toInt ≤ 0 := by decide
  have high : (maxTurns : Int) ≤ Int64.maxValue.toInt := by decide
  unfold Headers.IsInt64
  omega

/-- The request of a turn is legal if its conversation can be sent in a header. -/
theorem exists_headers {conversation : String} (legal : Text.isHeaderValue conversation = true)
    (turn : Nat) : ∃ h, Headers.ofList? (headers conversation turn) = some h := by
  have trace := isHeaderValue_of_plain (plain_traceName turn)
  have number : Text.isHeaderValue (toString turn) = true :=
    isHeaderValue_of_plain (Headers.plain_toString turn)
  have names : ((headers conversation turn).map Prod.fst).all Headers.isName = true := by
    rw [names_headers]
    decide
  rw [List.all_map, List.all_eq_true] at names
  refine ⟨_, if_pos (List.all_eq_true.mpr fun h member =>
    Bool.and_eq_true_iff.mpr ⟨names h member, ?_⟩)⟩
  simp only [headers, List.map_cons, List.map_nil, List.mem_cons, List.not_mem_nil, or_false]
    at member
  rcases member with rfl | rfl | rfl | rfl | rfl
  · exact trace
  · rfl
  · rfl
  · exact legal
  · exact number

/-- The request of a turn carries its correlation, if a header carries its conversation
unchanged. -/
theorem extract_headers {conversation : String} (plain : Headers.Plain conversation) {turn : Nat}
    (le : turn ≤ maxTurns) : ∃ h, Headers.ofList? (headers conversation turn) = some h ∧
      (h.extract {}).1 = turnCorrelation conversation turn := by
  obtain ⟨h, made⟩ := exists_headers (isHeaderValue_of_plain plain) turn
  refine ⟨h, made, Headers.extract_renders made ?_ (renders_headers conversation turn)⟩
  constructor
  · rintro _ ⟨⟩
    exact plain_traceName turn
  · rintro _ ⟨⟩
    exact Headers.plain_of_visible (by decide) (List.forall_iff_forall_mem.mp (by decide))
  · rintro _ ⟨⟩
    exact Headers.plain_of_visible (by decide) (List.forall_iff_forall_mem.mp (by decide))
  · rintro _ ⟨⟩
    exact plain
  · rintro _ ⟨⟩
    exact isInt64_of_le le

/-! ## Endings -/

section
variable {arguments : List String} {environment : Settings.Lookup} {n : Network} {a : Arguments}
  {publisher : Publisher.State}

/-- The turns of a demonstration are played with a publisher. -/
structure Plays (arguments : List String) (environment : Settings.Lookup) (n : Network)
    (a : Arguments) (publisher : Publisher.State) : Prop where
  /-- The arguments are read. -/
  read : Arguments.ofList arguments = .ok a
  /-- The variables are read, and the publisher is made of the settings. -/
  made : ∃ loaded, Settings.load environment = .ok loaded ∧
    Publisher.ofSettings (settings a loaded) n.transport [] = .ok publisher
  /-- Every turn can send the conversation. -/
  legal : a.turns = 0 ∨ Text.isHeaderValue a.conversation = true

/-- Every turn that is played is a request which carries its correlation, if a header carries the
conversation unchanged. -/
theorem Plays.correlation (plays : Plays arguments environment n a publisher)
    (plain : Headers.Plain a.conversation) {turn : Nat} (played : turn ∈ turnNumbers a) :
    ∃ h, Headers.ofList? (headers a.conversation turn) = some h ∧
      (h.extract {}).1 = turnCorrelation a.conversation turn := by
  have some := Arguments.turns_le plays.read
  simp only [turnNumbers, List.mem_map, List.mem_range] at played
  obtain ⟨earlier, among, rfl⟩ := played
  exact extract_headers plain (Nat.le_trans among some)

/-- What is told before the turns, and then the turns. -/
theorem Plays.run_eq (plays : Plays arguments environment n a publisher) :
    run arguments environment n = { play a n publisher with
      lines := Settings.loadLog environment ++ publisher.notices.map Publisher.Notice.line ++
        (play a n publisher).lines } := by
  obtain ⟨loaded, load, made⟩ := plays.made
  have legal : (decide (a.turns = 0) || Text.isHeaderValue a.conversation) = true := by
    rw [Bool.or_eq_true, decide_eq_true_eq]
    exact plays.legal
  simp only [run, plays.read, load, made, if_pos legal]

/-- A demonstration stops before its first turn. -/
inductive Stops (arguments : List String) : Ending → Prop
  /-- The arguments are not read. -/
  | misused {fault : ArgumentFault} (faulty : Arguments.ofList arguments = .error fault) :
    Stops arguments (.misused fault)
  /-- Something else is not as it has to be. -/
  | failed {a : Arguments} {reason : String} (read : Arguments.ofList arguments = .ok a) :
    Stops arguments (.failed reason)

/-- A demonstration is played, or it stops before its first turn and sends nothing. -/
theorem plays_or_stops (arguments : List String) (environment : Settings.Lookup) (n : Network) :
    (∃ a publisher, Plays arguments environment n a publisher) ∨
      Stops arguments (run arguments environment n).ending ∧
        (run arguments environment n).posts = [] := by
  cases read : Arguments.ofList arguments with
  | error fault =>
    simp only [run, read]
    exact .inr ⟨.misused read, trivial⟩
  | ok a =>
    cases load : Settings.load environment with
    | error e =>
      simp only [run, read, load]
      exact .inr ⟨.failed read, trivial⟩
    | ok loaded =>
      cases made : Publisher.ofSettings (settings a loaded) n.transport [] with
      | error e =>
        simp only [run, read, load, made]
        exact .inr ⟨.failed read, trivial⟩
      | ok publisher =>
        by_cases legal : (decide (a.turns = 0) || Text.isHeaderValue a.conversation) = true
        · rw [Bool.or_eq_true, decide_eq_true_eq] at legal
          exact .inl ⟨a, publisher, read, ⟨loaded, load, made⟩, legal⟩
        · simp only [run, read, load, made, if_neg legal]
          exact .inr ⟨.failed read, trivial⟩

theorem Plays.ending (plays : Plays arguments environment n a publisher) :
    (run arguments environment n).ending = .finished := by
  rw [plays.run_eq]
  rfl

/-- All turns are played exactly if they can be. -/
theorem ending_eq_finished_iff : (run arguments environment n).ending = .finished ↔
    ∃ a publisher, Plays arguments environment n a publisher := by
  constructor
  · intro finished
    rcases plays_or_stops arguments environment n with plays | ⟨stops, -⟩
    · exact plays
    · rw [finished] at stops
      nomatch stops
  · rintro ⟨a, publisher, plays⟩
    exact plays.ending

/-- The process succeeds exactly if all turns are played or the usage is asked for. -/
theorem code_eq_zero_iff : (run arguments environment n).ending.code = 0 ↔
    (∃ a publisher, Plays arguments environment n a publisher) ∨
      Arguments.ofList arguments = .error .usageWanted := by
  constructor
  · intro success
    rcases plays_or_stops arguments environment n with plays | ⟨stops, -⟩
    · exact .inl plays
    · generalize (run arguments environment n).ending = ending at stops success
      cases stops with
      | @misused fault faulty => cases fault <;> first | exact .inr faulty | cases success
      | failed read => cases success
  · rintro (⟨a, publisher, plays⟩ | wanted)
    · rw [plays.ending, Ending.code]
    · simp only [run, wanted, Ending.code]

/-- Unless all turns are played nothing is sent. -/
theorem posts_of_unfinished (unfinished : (run arguments environment n).ending ≠ .finished) :
    (run arguments environment n).posts = [] := by
  rcases plays_or_stops arguments environment n with ⟨a, publisher, plays⟩ | ⟨-, nothing⟩
  · exact absurd plays.ending unfinished
  · exact nothing

/-! ## Accounts -/

/-- The requests that arrive at the collector of a publisher. -/
def arrivals (n : Network) (s : Publisher.State) : List Post :=
  match Collector.ofSettings s.settings with
  | .ok c => n.received c s.handed
  | .error _ => []

theorem arrivals_of_handed {s : Publisher.State} (nothing : s.handed = []) : arrivals n s = [] := by
  rw [arrivals, nothing]
  cases n <;> split <;> rfl

/-- The last line and the requests are those of the publisher after one of its runs. So what is told
adds up: all events that were accepted are delivered, dropped, queued or in flight. -/
theorem Plays.account (plays : Plays arguments environment n a publisher) :
    ∃ actions before, let s := publisher.run actions
      (run arguments environment n).lines = before ++ [(Notice.finished s.stats).line] ∧
      (run arguments environment n).posts = arrivals n s ∧
      s.stats.accepted = s.stats.eventsDelivered + s.stats.eventsDropped + s.queueLength +
        s.inFlight.length := by
  obtain ⟨loaded, -, created⟩ := plays.made
  obtain ⟨actions, runs⟩ : ∃ actions,
      (Scenario.Setup.run ⟨{ publisher }, script a⟩).publisher = publisher.run actions :=
    Scenario.Setup.publisher_runs _ _ _
  have last : ∃ before, (run arguments environment n).lines =
      before ++ [(Notice.finished (publisher.run actions).stats).line] := by
    rw [plays.run_eq, ← runs]
    exact ⟨_, (List.append_assoc ..).symm⟩
  obtain ⟨before, last⟩ := last
  refine ⟨actions, before, last, ?_, (Publisher.Made.ofSettings created).accepted_eq actions⟩
  rw [plays.run_eq, arrivals, publisher.settings_run, ← runs]
  rfl

/-- If neither the variables nor the arguments enable the relay, the turns are played all the same,
but no event is accepted and nothing arrives at the collector. -/
theorem Plays.idle (plays : Plays arguments environment n a publisher)
    (off : publisher.settings.enabled = false) :
    (∃ actions before, (run arguments environment n).lines =
        before ++ [(Notice.finished (publisher.run actions).stats).line] ∧
      (publisher.run actions).stats.accepted = 0) ∧
    (run arguments environment n).posts = [] := by
  obtain ⟨loaded, -, created⟩ := plays.made
  obtain ⟨actions, before, last, posts, -⟩ := plays.account
  have made := Publisher.Made.ofSettings created
  have barred := (made.barred (.inl off) actions).1
  refine ⟨⟨actions, before, last, made.accepted_of_barred barred⟩, ?_⟩
  rw [posts, arrivals_of_handed (Publisher.State.handed_of_barred barred)]

end

/-! ## Logs -/

namespace Report

variable {environment other : Settings.Lookup}

/-- A log shows lines of the report, in their order. -/
theorem log_sublist (r : Report) (environment : Settings.Lookup) :
    (r.log environment).Sublist (r.lines.map Log.Line.text) :=
  List.filter_sublist.map Log.Line.text

/-- A log with a lower threshold shows all that one with a higher threshold shows. -/
theorem log_sublist_log (r : Report)
    (le : (Log.Threshold.ofText (environment thresholdKey)).bound ≤
      (Log.Threshold.ofText (other thresholdKey)).bound) :
    (r.log other).Sublist (r.log environment) :=
  (Log.Threshold.filter_sublist_filter le r.lines).map Log.Line.text

end Report

end EventRelay.Demo
