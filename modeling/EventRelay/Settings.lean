import EventRelay.Duration
import EventRelay.Text.Blank
import EventRelay.Text.Quoted
import EventRelay.Uri

/-!
# Settings of a relay

Settings say where events go, how they are batched and how patient the relay is. They are checked
when a relay is made: durations must not be zero, a batch must fit the queue, the source must not be
blank and an enabled relay needs a collector address. The token is never shown.
-/

namespace EventRelay

/-- A positive number. -/
structure Positive where
  /-- The number. -/
  value : Nat
  /-- It is not zero. -/
  pos : 0 < value
  deriving DecidableEq, Repr

/-- A number that is positive. -/
def Positive.ofNat? (n : Nat) : Option Positive := if pos : 0 < n then some ⟨n, pos⟩ else none

/-- The size of a batch where nothing else is said. -/
def Positive.standardBatch : Positive := ⟨20, Nat.succ_pos 19⟩

/-- The capacity of the queue where nothing else is said. -/
def Positive.standardQueue : Positive := ⟨1000, Nat.succ_pos 999⟩

/-- The settings of a relay; durations are in milliseconds. -/
structure Settings where
  /-- The base address of the collector. -/
  collectorUrl : Option String := none
  /-- The path of the batch endpoint. -/
  collectorPath : String := "/v1/events/batch"
  /-- The bearer token. -/
  authToken : Option String := none
  /-- Whether events are accepted at all. -/
  enabled : Bool := false
  /-- The number of events that make a batch. -/
  batchSize : Positive := .standardBatch
  /-- The longest time that an event waits for its batch to fill. -/
  flushInterval : Nat := 2000
  /-- The capacity of the queue. -/
  maxQueueSize : Positive := .standardQueue
  /-- The limit of one delivery attempt. -/
  deliveryTimeout : Nat := 3000
  /-- Whether a failed delivery is tried again. -/
  retryOnce : Bool := true
  /-- The pause before the second attempt. -/
  retryDelay : Nat := 200
  /-- How long a shutdown waits for the flush loop. -/
  shutdownTimeout : Nat := 5000
  /-- The name of the sending process. -/
  source : String := "chat-service"
  deriving DecidableEq, Repr

/-- Why settings are refused. -/
inductive SettingsError
  /-- A variable is present and cannot be read. -/
  | invalidValue (key value reason : String)
  /-- The settings do not fit together. -/
  | invalid (reason : String)
  deriving DecidableEq, Repr

/-- The explanation given to a reader. -/
def SettingsError.message : SettingsError → String
  | .invalidValue key value reason => s!"invalid value `{value}` for {key}: {reason}"
  | .invalid reason => s!"invalid telemetry configuration: {reason}"

namespace Settings

/-- Enabled settings for a collector. -/
def forCollector (url : String) : Settings := { collectorUrl := some url, enabled := true }

/-- A truth value as logs show it. -/
def debugBool (b : Bool) : String := if b then "true" else "false"

/-- The settings as logs show them, without the token. -/
def debug (s : Settings) : String :=
  "TelemetryConfig \x7b collector_url: " ++ Text.quotedOption s.collectorUrl ++
    ", collector_path: " ++ Text.quoted s.collectorPath ++
    ", auth_token: " ++ Text.quotedOption (s.authToken.map fun _ => "<redacted>") ++
    ", enabled: " ++ debugBool s.enabled ++
    s!", batch_size: {s.batchSize.value}" ++
    ", flush_interval: " ++ Duration.debug s.flushInterval ++
    s!", max_queue_size: {s.maxQueueSize.value}" ++
    ", delivery_timeout: " ++ Duration.debug s.deliveryTimeout ++
    ", retry_once: " ++ debugBool s.retryOnce ++
    ", retry_delay: " ++ Duration.debug s.retryDelay ++
    ", shutdown_timeout: " ++ Duration.debug s.shutdownTimeout ++
    ", source: " ++ Text.quoted s.source ++ " \x7d"

/-- The address of the batch endpoint: base address and path joined by one slash. -/
def endpoint (s : Settings) : Option String :=
  s.collectorUrl.map fun url =>
    String.ofList ((url.toList.reverse.dropWhile (· = '/')).reverse ++
      '/' :: s.collectorPath.toList.dropWhile (· = '/'))

/-- Whether an address names one of the two supported schemes. -/
def hasScheme (url : String) : Bool :=
  "http://".toList.isPrefixOf url.toList || "https://".toList.isPrefixOf url.toList

/-- Checks the collector address. -/
def checkCollector (s : Settings) : Except SettingsError Unit :=
  match s.collectorUrl with
  | some url =>
    if !hasScheme url then .error (.invalid "collector URL must start with http:// or https://")
    else
      match Uri.parse .lenient (s.endpoint.getD "") with
      | .ok _ => .ok ()
      | .error _ => .error (.invalid "collector endpoint is not a valid URI")
  | none =>
    if s.enabled then
      .error (.invalid "telemetry is enabled but no collector URL is configured")
    else .ok ()

/-- Checks the settings; the first failing check is reported. -/
def validate (s : Settings) : Except SettingsError Unit :=
  if s.flushInterval = 0 then .error (.invalid "flush interval must be greater than zero")
  else if s.deliveryTimeout = 0 then .error (.invalid "delivery timeout must be greater than zero")
  else if s.shutdownTimeout = 0 then .error (.invalid "shutdown timeout must be greater than zero")
  else if s.maxQueueSize.value < s.batchSize.value then
    .error (.invalid "batch size cannot exceed max queue size")
  else if Text.trimChars s.source.toList = [] then .error (.invalid "source cannot be empty")
  else s.checkCollector

end Settings

end EventRelay
