import EventRelay.Proofs.Checks
import EventRelay.Proofs.Text.Decimal
import EventRelay.Proofs.Text.Trimming
import EventRelay.Settings.Loading

/-!
# Settings as the variables give them

Each setting is what its own variable means, or its default where the variable is absent or blank.
Loading succeeds exactly if every variable that is given means something, and otherwise blames the
first one that does not. Only the contents of variables matter: blanks around a value, and variables
that hold nothing but blanks, make no difference.
-/

namespace EventRelay.Settings

/-! ## What a variable means -/

/-- A variable is present and not blank, and this is its content. -/
def Given (lookup : Lookup) (key value : String) : Prop :=
  ∃ raw, lookup key = some raw ∧ Text.Content raw value

/-- The words for a truth value. -/
def words : Bool → List String
  | true => ["1", "true", "yes", "on"]
  | false => ["0", "false", "no", "off"]

/-- A word for a truth value, in any ASCII case. -/
def IsTruth (value : String) (b : Bool) : Prop :=
  String.ofList (value.toList.map Char.toLower) ∈ words b

/-- A number of milliseconds, which fits 64 bits. -/
def IsMillis (value : String) (n : Nat) : Prop := Text.Unsigned value.toList n ∧ n < UInt64.size

/-- A positive number that fits 64 bits. -/
def IsCount (value : String) (p : Positive) : Prop :=
  Text.Unsigned value.toList p.value ∧ p.value < UInt64.size

/-- What kind of value a variable is for. -/
inductive Kind
  /-- A truth value. -/
  | truth
  /-- A number of milliseconds. -/
  | millis
  /-- A positive number. -/
  | count
  deriving DecidableEq, Repr

/-- A text means a value of the kind. -/
def Kind.Admits : Kind → String → Prop
  | .truth, value => ∃ b, IsTruth value b
  | .millis, value => ∃ n, IsMillis value n
  | .count, value => ∃ p, IsCount value p

/-- The variables that have to mean something, in the order in which they are read. -/
def typedVariables : List (String × Kind) :=
  [(enabledKey, .truth), (batchSizeKey, .count), (flushIntervalKey, .millis),
    (maxQueueSizeKey, .count), (timeoutKey, .millis), (retryOnceKey, .truth),
    (retryDelayKey, .millis), (shutdownTimeoutKey, .millis)]

/-- A setting is what its variable means, or its default if the variable gives nothing. -/
def Takes {α : Type} (lookup : Lookup) (key : String) (Means : String → α → Prop)
    (standard a : α) : Prop :=
  (∀ value, Given lookup key value → Means value a) ∧
    ((∀ value, ¬ Given lookup key value) → a = standard)

/-- The settings that the variables give. -/
structure Loaded (lookup : Lookup) (s : Settings) : Prop where
  collectorUrl : ∀ value, s.collectorUrl = some value ↔ Given lookup collectorUrlKey value
  authToken : ∀ value, s.authToken = some value ↔ Given lookup authTokenKey value
  enabled : Takes lookup enabledKey IsTruth s.collectorUrl.isSome s.enabled
  batchSize : Takes lookup batchSizeKey IsCount .standardBatch s.batchSize
  flushInterval : Takes lookup flushIntervalKey IsMillis 2000 s.flushInterval
  maxQueueSize : Takes lookup maxQueueSizeKey IsCount .standardQueue s.maxQueueSize
  deliveryTimeout : Takes lookup timeoutKey IsMillis 3000 s.deliveryTimeout
  retryOnce : Takes lookup retryOnceKey IsTruth true s.retryOnce
  retryDelay : Takes lookup retryDelayKey IsMillis 200 s.retryDelay
  shutdownTimeout : Takes lookup shutdownTimeoutKey IsMillis 5000 s.shutdownTimeout
  collectorPath : Takes lookup collectorPathKey (· = ·) "/v1/events/batch" s.collectorPath
  source : Takes lookup sourceKey (· = ·) "chat-service" s.source

/-- The first of the variables that is given and means nothing is blamed, with its content. -/
inductive FirstFault (lookup : Lookup) : List (String × Kind) → SettingsError → Prop
  | here {key value reason : String} {kind : Kind} {rest : List (String × Kind)}
      (given : Given lookup key value) (unfit : ¬ kind.Admits value) :
      FirstFault lookup ((key, kind) :: rest) (.invalidValue key value reason)
  | later {key : String} {kind : Kind} {rest : List (String × Kind)} {e : SettingsError}
      (fit : ∀ value, Given lookup key value → kind.Admits value)
      (fault : FirstFault lookup rest e) : FirstFault lookup ((key, kind) :: rest) e

variable {lookup : Lookup} {key value : String}

theorem value?_eq_some_iff : value? lookup key = some value ↔ Given lookup key value :=
  Text.filter_trim_eq_some_iff

theorem value?_eq_none_iff : value? lookup key = none ↔ ∀ value, ¬ Given lookup key value := by
  simp only [Option.eq_none_iff_forall_ne_some, ne_eq, value?_eq_some_iff]

/-! ## Readers -/

/-- A reader accepts what means a value, and otherwise blames the variable with the text. -/
structure Reads {α : Type} (read : String → String → Except SettingsError α)
    (Means : String → α → Prop) : Prop where
  ok_iff : ∀ {key value : String} {a : α}, read key value = .ok a ↔ Means value a
  error : ∀ {key value : String} {e : SettingsError}, read key value = .error e →
    ∃ reason, e = .invalidValue key value reason

theorem readBool_eq_some_iff {b : Bool} : readBool value = some b ↔ IsTruth value b := by
  have apart : ∀ word ∈ words true, word ∉ words false := by decide
  have affirms : (["1", "true", "yes", "on"].contains
      (String.ofList (value.toList.map Char.toLower)) = true) ↔ IsTruth value true := by
    rw [List.contains_iff_mem]
    rfl
  have denies : (["0", "false", "no", "off"].contains
      (String.ofList (value.toList.map Char.toLower)) = true) ↔ IsTruth value false := by
    rw [List.contains_iff_mem]
    rfl
  simp only [readBool, affirms, denies]
  have := apart (String.ofList (value.toList.map Char.toLower))
  cases b <;> split <;> simp_all [IsTruth]

theorem boolOf_reads : Reads boolOf IsTruth where
  ok_iff := by
    intro key value b
    rw [← readBool_eq_some_iff, boolOf]
    cases readBool value <;> simp
  error := by
    intro key value e fails
    unfold boolOf at fails
    split at fails
    · cases fails
    · cases fails
      exact ⟨_, rfl⟩

/-- What the reader takes is what fits 64 bits. -/
theorem fits_iff {n : Nat} : n ≤ Text.maxU64 ↔ n < UInt64.size := Nat.lt_succ_iff.symm

theorem millisOf_reads : Reads millisOf IsMillis where
  ok_iff := by
    intro key value n
    rw [IsMillis, ← fits_iff, ← Text.readNatural_eq_ok_iff, millisOf]
    cases Text.readNatural Text.maxU64 value.toList <;> simp
  error := by
    intro key value e fails
    unfold millisOf at fails
    split at fails
    · cases fails
    · cases fails
      exact ⟨_, rfl⟩

theorem readCount_eq_ok_iff {p : Positive} : readCount value = .ok p ↔ IsCount value p := by
  rw [IsCount, ← fits_iff, ← Text.readNatural_eq_ok_iff, readCount]
  obtain ⟨m, pos⟩ := p
  cases Text.readNatural Text.maxU64 value.toList with
  | error fault => simp
  | ok n =>
    by_cases positive : 0 < n
    · simp [Positive.ofNat?, positive]
    · have zero : n ≠ m := by omega
      simp [Positive.ofNat?, positive, zero]

theorem countOf_reads : Reads countOf IsCount where
  ok_iff := by
    intro key value p
    rw [← readCount_eq_ok_iff, countOf]
    cases readCount value <;> simp
  error := by
    intro key value e fails
    unfold countOf at fails
    split at fails
    · cases fails
    · cases fails
      exact ⟨_, rfl⟩

/-! ## One setting -/

section Setting

variable {α : Type} {read : String → String → Except SettingsError α}
  {Means : String → α → Prop} {standard a : α}

theorem setting_eq_ok_iff (reads : Reads read Means) :
    setting lookup key read standard = .ok a ↔ Takes lookup key Means standard a := by
  cases content : value? lookup key with
  | none =>
    have absent := value?_eq_none_iff.mp content
    simp only [setting, content, Takes, Except.ok.injEq]
    constructor
    · rintro rfl
      exact ⟨fun value given => absurd given (absent value), fun _ => rfl⟩
    · exact fun ⟨_, fallback⟩ => (fallback absent).symm
  | some value =>
    have given := value?_eq_some_iff.mp content
    simp only [setting, content, reads.ok_iff, Takes]
    constructor
    · intro means
      refine ⟨fun other present => ?_, fun absent => absurd given (absent value)⟩
      rw [← value?_eq_some_iff, content] at present
      cases present
      exact means
    · exact fun ⟨means, _⟩ => means value given

/-- A setting that cannot be read is given, and means nothing. -/
theorem fault_of_setting {e : SettingsError} (reads : Reads read Means)
    (fails : setting lookup key read standard = .error e) :
    ∃ value reason, Given lookup key value ∧ (∀ a, ¬ Means value a) ∧
      e = .invalidValue key value reason := by
  unfold setting at fails
  split at fails
  · next value content =>
    obtain ⟨reason, rfl⟩ := reads.error fails
    refine ⟨value, reason, value?_eq_some_iff.mp content, fun a means => ?_, rfl⟩
    rw [reads.ok_iff.mpr means] at fails
    cases fails
  · cases fails

/-- Where a setting is read before others, it is to blame if it cannot be read, and otherwise means
something, so that the first fault lies behind it. -/
theorem FirstFault.of_bind {β : Type} {kind : Kind} {rest : List (String × Kind)}
    {next : α → Except SettingsError β} {e : SettingsError} (reads : Reads read Means)
    (admits : ∀ value, kind.Admits value ↔ ∃ a, Means value a)
    (fails : setting lookup key read standard >>= next = .error e)
    (later : ∀ a, next a = .error e → FirstFault lookup rest e) :
    FirstFault lookup ((key, kind) :: rest) e := by
  rcases bind_eq_error_iff.mp fails with first | ⟨a, taken, fails⟩
  · obtain ⟨value, reason, given, meaningless, rfl⟩ := fault_of_setting reads first
    exact .here given fun fit => not_exists.mpr meaningless ((admits value).mp fit)
  · have takes := (setting_eq_ok_iff reads).mp taken
    exact .later (fun value given => (admits value).mpr ⟨a, takes.1 value given⟩) (later a fails)

end Setting

/-- A text setting is the content of its variable, or else its default. -/
theorem takes_getD_iff {standard text : String} :
    Takes lookup key (· = ·) standard text ↔ text = (value? lookup key).getD standard := by
  cases content : value? lookup key with
  | none =>
    have absent := value?_eq_none_iff.mp content
    exact ⟨fun ⟨_, fallback⟩ => fallback absent,
      fun same => ⟨fun value given => absurd given (absent value), fun _ => same⟩⟩
  | some value =>
    have given := value?_eq_some_iff.mp content
    constructor
    · exact fun ⟨means, _⟩ => (means value given).symm
    · intro same
      refine ⟨fun other present => ?_, fun absent => absurd given (absent value)⟩
      rw [← value?_eq_some_iff, content] at present
      exact (Option.some.inj present).symm.trans same.symm

/-! ## All settings -/

theorem load_eq_ok_iff {s : Settings} : load lookup = .ok s ↔ Loaded lookup s := by
  simp only [load, bind_eq_ok_iff, setting_eq_ok_iff boolOf_reads, setting_eq_ok_iff countOf_reads,
    setting_eq_ok_iff millisOf_reads]
  constructor
  · rintro ⟨enabled, h₁, batchSize, h₂, flushInterval, h₃, maxQueueSize, h₄, deliveryTimeout, h₅,
      retryOnce, h₆, retryDelay, h₇, shutdownTimeout, h₈, ⟨⟩⟩
    exact ⟨fun _ => value?_eq_some_iff, fun _ => value?_eq_some_iff, h₁, h₂, h₃, h₄, h₅, h₆, h₇, h₈,
      takes_getD_iff.mpr rfl, takes_getD_iff.mpr rfl⟩
  · intro loaded
    have url : s.collectorUrl = value? lookup collectorUrlKey :=
      Option.ext fun value => (loaded.collectorUrl value).trans value?_eq_some_iff.symm
    have token : s.authToken = value? lookup authTokenKey :=
      Option.ext fun value => (loaded.authToken value).trans value?_eq_some_iff.symm
    have path := takes_getD_iff.mp loaded.collectorPath
    have source := takes_getD_iff.mp loaded.source
    refine ⟨s.enabled, url ▸ loaded.enabled, s.batchSize, loaded.batchSize, s.flushInterval,
      loaded.flushInterval, s.maxQueueSize, loaded.maxQueueSize, s.deliveryTimeout,
      loaded.deliveryTimeout, s.retryOnce, loaded.retryOnce, s.retryDelay, loaded.retryDelay,
      s.shutdownTimeout, loaded.shutdownTimeout, ?_⟩
    rw [← url, ← token, ← path, ← source]
    rfl

/-- What is blamed is the first variable that means nothing. -/
theorem firstFault_of_load {e : SettingsError} (fails : load lookup = .error e) :
    FirstFault lookup typedVariables e := by
  refine .of_bind boolOf_reads (fun _ => .rfl) fails fun _ fails => ?_
  refine .of_bind countOf_reads (fun _ => .rfl) fails fun _ fails => ?_
  refine .of_bind millisOf_reads (fun _ => .rfl) fails fun _ fails => ?_
  refine .of_bind countOf_reads (fun _ => .rfl) fails fun _ fails => ?_
  refine .of_bind millisOf_reads (fun _ => .rfl) fails fun _ fails => ?_
  refine .of_bind boolOf_reads (fun _ => .rfl) fails fun _ fails => ?_
  refine .of_bind millisOf_reads (fun _ => .rfl) fails fun _ fails => ?_
  refine .of_bind millisOf_reads (fun _ => .rfl) fails fun _ fails => ?_
  cases fails

/-- Where something is blamed, a variable is given that means nothing. -/
theorem FirstFault.exists_unfit {vars : List (String × Kind)} {e : SettingsError}
    (fault : FirstFault lookup vars e) :
    ∃ x ∈ vars, ∃ value, Given lookup x.1 value ∧ ¬ x.2.Admits value := by
  induction fault with
  | here given unfit => exact ⟨_, List.mem_cons_self, _, given, unfit⟩
  | later _ _ ih =>
    obtain ⟨x, member, unfit⟩ := ih
    exact ⟨x, List.mem_cons_of_mem _ member, unfit⟩

/-- What has been loaded means something. -/
theorem Loaded.fit {s : Settings} (loaded : Loaded lookup s) :
    ∀ x ∈ typedVariables, ∀ value, Given lookup x.1 value → x.2.Admits value := by
  simp only [typedVariables, List.forall_mem_cons]
  exact ⟨fun value given => ⟨_, loaded.enabled.1 value given⟩,
    fun value given => ⟨_, loaded.batchSize.1 value given⟩,
    fun value given => ⟨_, loaded.flushInterval.1 value given⟩,
    fun value given => ⟨_, loaded.maxQueueSize.1 value given⟩,
    fun value given => ⟨_, loaded.deliveryTimeout.1 value given⟩,
    fun value given => ⟨_, loaded.retryOnce.1 value given⟩,
    fun value given => ⟨_, loaded.retryDelay.1 value given⟩,
    fun value given => ⟨_, loaded.shutdownTimeout.1 value given⟩, by simp⟩

theorem exists_load_iff : (∃ s, load lookup = .ok s) ↔
    ∀ x ∈ typedVariables, ∀ value, Given lookup x.1 value → x.2.Admits value := by
  constructor
  · rintro ⟨s, made⟩
    exact (load_eq_ok_iff.mp made).fit
  · intro fit
    by_contra none
    obtain ⟨e, fails⟩ := exists_error_of_ne_ok (not_exists.mp none)
    obtain ⟨x, member, value, given, unfit⟩ := (firstFault_of_load fails).exists_unfit
    exact unfit (fit x member value given)

/-! ## Blanks -/

/-- Only the contents of variables matter. -/
theorem load_congr {other : Lookup} (same : ∀ key, value? lookup key = value? other key) :
    load lookup = load other := by
  simp only [load, setting, same]

/-- A text is put between blanks. -/
def Pads (raw wide : String) : Prop :=
  ∃ front back, Text.AllBlank front ∧ Text.AllBlank back ∧
    wide.toList = front ++ raw.toList ++ back

theorem trim_of_pads {raw wide : String} (pads : Pads raw wide) :
    Text.trim wide = Text.trim raw := by
  obtain ⟨front, back, before, after, whole⟩ := pads
  rw [← String.toList_inj, Text.toList_trim, Text.toList_trim, whole,
    Text.trimChars_append_ends before after]

theorem map_trim_of_pads {given padded : Option String} (pads : Option.Rel Pads given padded) :
    padded.map Text.trim = given.map Text.trim := by
  cases pads with
  | some pads => rw [Option.map_some, Option.map_some, trim_of_pads pads]
  | none => rfl

theorem load_of_pads {padded : Lookup}
    (pads : ∀ key, Option.Rel Pads (lookup key) (padded key)) : load padded = load lookup := by
  refine load_congr fun key => ?_
  rw [value?, value?, map_trim_of_pads (pads key)]

theorem load_without_blank {raw : String} (present : lookup key = some raw)
    (blank : Text.AllBlank raw.toList) :
    load (fun k => if k = key then none else lookup k) = load lookup := by
  refine load_congr fun k => ?_
  unfold value?
  dsimp only
  split
  · next same =>
    have empty : Text.trim raw = "" := by
      rw [Text.trim, Text.trimChars_eq_nil_iff.mpr blank]
    rw [same, present, Option.map_some, empty]
    rfl
  · rfl

/-- Loading for every source of variables. The settings are what their variables mean, or defaults;
there are settings exactly if each variable that is given means something, and otherwise the first
one that does not is blamed. A blank variable counts for nothing, and blanks around a value do not
count. -/
theorem settings_are_loaded_from_variables (lookup : Lookup) :
    (∀ s, load lookup = .ok s ↔ Loaded lookup s) ∧
      ((∃ s, load lookup = .ok s) ↔
        ∀ x ∈ typedVariables, ∀ value, Given lookup x.1 value → x.2.Admits value) ∧
      (∀ e, load lookup = .error e → FirstFault lookup typedVariables e) ∧
      (∀ key raw, lookup key = some raw → Text.AllBlank raw.toList →
        load (fun k => if k = key then none else lookup k) = load lookup) ∧
      ∀ padded : Lookup, (∀ key, Option.Rel Pads (lookup key) (padded key)) →
        load padded = load lookup :=
  ⟨fun _ => load_eq_ok_iff, exists_load_iff, fun _ => firstFault_of_load,
    fun _ _ => load_without_blank, fun _ => load_of_pads⟩

/-- A blank switch, a batch size between blanks and two values that mean nothing. -/
def faultyVariables : Lookup := fun key =>
  if key = enabledKey then some " \t"
  else if key = batchSizeKey then some " +050 "
  else if key = retryOnceKey then some "maybe "
  else if key = retryDelayKey then some "soon"
  else none

/-- The second attempt is read before its delay, so it is blamed; the blank switch is not. -/
theorem unreadable_attempt_is_blamed :
    load faultyVariables = .error (.invalidValue retryOnceKey "maybe" "expected a boolean") ∧
      FirstFault faultyVariables typedVariables
        (.invalidValue retryOnceKey "maybe" "expected a boolean") ∧
      load (fun k => if k = enabledKey then none else faultyVariables k) =
        load faultyVariables := by
  have fails : load faultyVariables =
      .error (.invalidValue retryOnceKey "maybe" "expected a boolean") := by decide +kernel
  have blank : Text.AllBlank " \t".toList := by decide
  have laws := settings_are_loaded_from_variables faultyVariables
  exact ⟨fails, laws.2.2.1 _ fails, laws.2.2.2.1 enabledKey " \t" rfl blank⟩

end EventRelay.Settings
