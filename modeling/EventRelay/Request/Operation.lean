import EventRelay.Request.Scope

/-!
# Operations on the state of a request

An operation is what a task does with the scope that it runs in: it changes that scope alone and
reads from it. Outside any scope an operation changes nothing and reads an empty scope; a claim then
tells that there is no scope.
-/

namespace EventRelay.Request

/-- What a task does with its scope. -/
inductive Operation
  /-- Sets the correlation. -/
  | setCorrelation (c : Correlation)
  /-- Reads the correlation. -/
  | readCorrelation
  /-- Clears the correlation. -/
  | resetCorrelation
  /-- Records the latency of a stage. -/
  | setStage (name : String) (millis : Nat)
  /-- Records the total latency. -/
  | setTotal (millis : Nat)
  /-- Reads the latencies. -/
  | readLatency
  /-- Reads the latency of a stage. -/
  | readStage (name : String)
  /-- Records the retrieval. -/
  | setRetrieval (r : Retrieval)
  /-- Reads the retrieval. -/
  | readRetrieval
  /-- Reads all metrics. -/
  | readMetrics
  /-- Clears all metrics. -/
  | resetMetrics
  /-- Claims the slot of the chat turn. -/
  | claimChatTurn
  /-- Claims a slot. -/
  | claim (slot : Slot)
  /-- Asks whether a slot is claimed. -/
  | readSlot (slot : Slot)
  /-- Reads the claims. -/
  | readClaims
  /-- Clears the claims. -/
  | resetClaims
  deriving DecidableEq, Repr

/-- What an operation tells. -/
inductive Reading
  /-- Nothing. -/
  | nothing
  /-- A correlation. -/
  | correlation (c : Correlation)
  /-- Latencies. -/
  | latency (l : Latency)
  /-- The latency of a stage, if it was recorded. -/
  | stage (millis : Option Nat)
  /-- A retrieval. -/
  | retrieval (r : Retrieval)
  /-- All metrics. -/
  | metrics (m : Metrics)
  /-- Whether a slot was free; none without a scope. -/
  | claimed (free : Option Bool)
  /-- Whether a slot is claimed. -/
  | taken (yes : Bool)
  /-- Claims. -/
  | claims (c : Claims)
  deriving DecidableEq, Repr

namespace Operation

/-- The scope after an operation. -/
def apply (s : Scope) : Operation → Scope
  | .setCorrelation c => { s with correlation := c }
  | .resetCorrelation => { s with correlation := {} }
  | .setStage name millis =>
    { s with metrics := { s.metrics with latency := s.metrics.latency.setStage name millis } }
  | .setTotal millis =>
    { s with
      metrics := { s.metrics with latency := { s.metrics.latency with explicit := some millis } } }
  | .setRetrieval r => { s with metrics := { s.metrics with retrieval := r } }
  | .resetMetrics => { s with metrics := {} }
  | .claimChatTurn => { s with claims := s.claims.claimChatTurn.1 }
  | .claim slot => { s with claims := (s.claims.claim slot).1 }
  | .resetClaims => { s with claims := {} }
  | .readCorrelation | .readLatency | .readStage _ | .readRetrieval | .readMetrics | .readSlot _
  | .readClaims => s

/-- What an operation tells about the scope that it finds. -/
def reading (s : Scope) : Operation → Reading
  | .readCorrelation => .correlation s.correlation
  | .readLatency => .latency s.metrics.latency
  | .readStage name => .stage (s.metrics.latency.stage? name)
  | .readRetrieval => .retrieval s.metrics.retrieval
  | .readMetrics => .metrics s.metrics
  | .claimChatTurn => .claimed (some s.claims.claimChatTurn.2)
  | .claim slot => .claimed (some (s.claims.claim slot).2)
  | .readSlot slot => .taken (s.claims.has slot)
  | .readClaims => .claims s.claims
  | .setCorrelation _ | .resetCorrelation | .setStage .. | .setTotal _ | .setRetrieval _
  | .resetMetrics | .resetClaims => .nothing

/-- What an operation tells outside any scope. -/
def outside : Operation → Reading
  | .claimChatTurn => .claimed none
  | .claim _ => .claimed none
  | op => op.reading .cleared

/-- What has to be reported about an operation outside any scope. -/
def outsideNotices : Operation → List Notice
  | .setCorrelation _ => [.correlationIgnored]
  | _ => []

end Operation

namespace Scopes

/-- An operation of a task that runs in the given scope, or in none. -/
def perform (s : Scopes) (scope : Option ScopeId) (op : Operation) : Scopes × Reading :=
  match scope with
  | none => (s, op.outside)
  | some i => (s.update i op.apply, op.reading (s.get i))

/-- The state seen in a scope; outside any scope everything is empty. -/
def seen (s : Scopes) (scope : Option ScopeId) : Option Scope := scope.map s.get

end Scopes

end EventRelay.Request
