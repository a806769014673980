import EventRelay.Log
import EventRelay.Settings
import EventRelay.Text.Integer

/-!
# Settings from variables

Each setting has a variable. Values are trimmed, and a blank value counts as absent. Variables are
read in a fixed order and the first one that cannot be read is reported with its trimmed value.
Without a variable of its own the relay is enabled exactly if a collector address is given. Settings
that could be loaded are told in one line, which does not show the token.
-/

namespace EventRelay.Settings

/-- The names of the variables. -/
def collectorUrlKey : String := "TELEMETRY_COLLECTOR_URL"
/-- The variable of the path. -/
def collectorPathKey : String := "TELEMETRY_COLLECTOR_PATH"
/-- The variable of the token. -/
def authTokenKey : String := "TELEMETRY_AUTH_TOKEN"
/-- The variable of the main switch. -/
def enabledKey : String := "TELEMETRY_ENABLED"
/-- The variable of the batch size. -/
def batchSizeKey : String := "TELEMETRY_BATCH_SIZE"
/-- The variable of the flush interval. -/
def flushIntervalKey : String := "TELEMETRY_FLUSH_INTERVAL_MS"
/-- The variable of the queue capacity. -/
def maxQueueSizeKey : String := "TELEMETRY_MAX_QUEUE_SIZE"
/-- The variable of the delivery timeout. -/
def timeoutKey : String := "TELEMETRY_TIMEOUT_MS"
/-- The variable of the second attempt. -/
def retryOnceKey : String := "TELEMETRY_RETRY_ONCE"
/-- The variable of the pause before it. -/
def retryDelayKey : String := "TELEMETRY_RETRY_DELAY_MS"
/-- The variable of the shutdown timeout. -/
def shutdownTimeoutKey : String := "TELEMETRY_SHUTDOWN_TIMEOUT_MS"
/-- The variable of the source. -/
def sourceKey : String := "TELEMETRY_SOURCE"

/-- A source of variables. -/
abbrev Lookup := String → Option String

/-- The trimmed value of a variable, if it is present and not blank. -/
def value? (lookup : Lookup) (key : String) : Option String :=
  ((lookup key).map Text.trim).filter (· ≠ "")

/-- The words for truth values, in any ASCII case. -/
def readBool (s : String) : Option Bool :=
  let word := String.ofList (s.toList.map Char.toLower)
  if ["1", "true", "yes", "on"].contains word then some true
  else if ["0", "false", "no", "off"].contains word then some false
  else none

/-- A truth value of the variable `key`. -/
def boolOf (key value : String) : Except SettingsError Bool :=
  match readBool value with
  | some b => .ok b
  | none => .error (.invalidValue key value "expected a boolean")

/-- A number of milliseconds of the variable `key`. -/
def millisOf (key value : String) : Except SettingsError Nat :=
  match Text.readNatural Text.maxU64 value.toList with
  | .ok n => .ok n
  | .error fault => .error (.invalidValue key value fault.message)

/-- A positive number. -/
def readCount (s : String) : Except Text.IntegerFault Positive :=
  match Text.readNatural Text.maxU64 s.toList with
  | .ok n =>
    match Positive.ofNat? n with
    | some p => .ok p
    | none => .error .zero
  | .error fault => .error fault

/-- A positive number of the variable `key`. -/
def countOf (key value : String) : Except SettingsError Positive :=
  match readCount value with
  | .ok n => .ok n
  | .error fault => .error (.invalidValue key value fault.message)

/-- A setting is read from its variable or else keeps its default. -/
def setting {α : Type} (lookup : Lookup) (key : String)
    (read : String → String → Except SettingsError α) (fallback : α) : Except SettingsError α :=
  match value? lookup key with
  | some value => read key value
  | none => .ok fallback

/-- Loads settings from variables. -/
def load (lookup : Lookup) : Except SettingsError Settings := do
  let standard : Settings := {}
  let collectorUrl := value? lookup collectorUrlKey
  let authToken := value? lookup authTokenKey
  let enabled ← setting lookup enabledKey boolOf collectorUrl.isSome
  let batchSize ← setting lookup batchSizeKey countOf standard.batchSize
  let flushInterval ← setting lookup flushIntervalKey millisOf standard.flushInterval
  let maxQueueSize ← setting lookup maxQueueSizeKey countOf standard.maxQueueSize
  let deliveryTimeout ← setting lookup timeoutKey millisOf standard.deliveryTimeout
  let retryOnce ← setting lookup retryOnceKey boolOf standard.retryOnce
  let retryDelay ← setting lookup retryDelayKey millisOf standard.retryDelay
  let shutdownTimeout ← setting lookup shutdownTimeoutKey millisOf standard.shutdownTimeout
  return {
    collectorUrl, authToken, enabled, batchSize, flushInterval, maxQueueSize, deliveryTimeout
    retryOnce, retryDelay, shutdownTimeout
    collectorPath := (value? lookup collectorPathKey).getD standard.collectorPath
    source := (value? lookup sourceKey).getD standard.source }

/-- What loading tells. -/
def loadLog (lookup : Lookup) : List Log.Line :=
  match load lookup with
  | .ok s => [⟨.debug, "telemetry configuration loaded", [("config", s.debug)]⟩]
  | .error _ => []

end EventRelay.Settings
