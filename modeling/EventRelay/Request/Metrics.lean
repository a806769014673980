import EventRelay.Binary64.Decimal
import EventRelay.Text.Integer

/-!
# Metrics of a request

Business code records latencies by stage, an optional total and the retrieval of a request. Values
are kept as they come and are checked only when an event is built. Without a total of its own the
latency is the sum of the stages, bounded by 64 bits.
-/

namespace EventRelay.Request

/-- Latencies in milliseconds. -/
structure Latency where
  /-- The latency of each stage, ordered by the name of the stage. -/
  stages : List (String × Nat) := []
  /-- A total that was recorded on its own. -/
  explicit : Option Nat := none
  deriving DecidableEq, Repr, Inhabited

namespace Latency

/-- Sets the value of a name in an ordered list. -/
def insert (name : String) (value : Nat) : List (String × Nat) → List (String × Nat)
  | [] => [(name, value)]
  | (n, v) :: rest =>
    if name = n then (name, value) :: rest
    else if name < n then (name, value) :: (n, v) :: rest
    else (n, v) :: insert name value rest

/-- Records the latency of a stage; an earlier value is overwritten. -/
def setStage (l : Latency) (name : String) (millis : Nat) : Latency :=
  { l with stages := insert name millis l.stages }

/-- The latency of a stage. -/
def stage? (l : Latency) (name : String) : Option Nat := l.stages.lookup name

/-- A sum that stops at the largest 64-bit number. -/
def addBounded (a b : Nat) : Nat := min Text.maxU64 (a + b)

/-- The recorded total, or else the bounded sum of the stages. -/
def total (l : Latency) : Nat :=
  l.explicit.getD ((l.stages.map Prod.snd).foldl addBounded 0)

/-- Whether nothing has been recorded. -/
def isEmpty (l : Latency) : Bool := l.stages.isEmpty && l.explicit.isNone

/-- A value that was just recorded is found. -/
theorem lookup_insert (name : String) (value : Nat) (stages : List (String × Nat)) :
    (insert name value stages).lookup name = some value := by
  induction stages with
  | nil => simp [insert]
  | cons p rest ih =>
    obtain ⟨n, v⟩ := p
    rw [insert]
    split
    · simp
    · next hne =>
      split
      · simp
      · have : (name == n) = false := by simpa using hne
        rw [List.lookup_cons, this]
        exact ih

end Latency

/-- A hit of the retriever. -/
structure Hit where
  /-- The document. -/
  doc : String
  /-- The chunk of the document. -/
  chunk : String
  /-- The score. -/
  score : Binary64
  deriving DecidableEq, Repr

/-- The retrieval of a request; an empty retriever means that none ran. -/
structure Retrieval where
  /-- The retriever. -/
  retriever : String := ""
  /-- How many results were asked for. -/
  topK : Nat := 0
  /-- The hits in ranking order. -/
  hits : List Hit := []
  deriving DecidableEq, Repr, Inhabited

/-- Whether no retrieval was recorded. -/
def Retrieval.isEmpty (r : Retrieval) : Bool := r.retriever = "" && r.topK = 0 && r.hits.isEmpty

/-- All metrics of a request. -/
structure Metrics where
  /-- Latencies. -/
  latency : Latency := {}
  /-- Retrieval. -/
  retrieval : Retrieval := {}
  deriving DecidableEq, Repr, Inhabited

/-- Whether nothing has been recorded. -/
def Metrics.isEmpty (m : Metrics) : Bool := m.latency.isEmpty && m.retrieval.isEmpty

end EventRelay.Request
