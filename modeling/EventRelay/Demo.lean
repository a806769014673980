import EventRelay.Demo.Arguments
import EventRelay.Exchange
import EventRelay.Log.Threshold
import EventRelay.Publisher.Completion
import EventRelay.Scenario.Run
import EventRelay.Settings.Loading

/-!
# The demonstration

The demonstration plays chat turns of one conversation, one request after the other, and tells how
each turn was handled. Every turn retrieves, generates and emits its chat turn event; every fourth
turn emits a security event before that, and every turn but the first one gives feedback on the turn
before it. At the end the publisher is stopped and its counters are told.
-/

namespace EventRelay.Demo

open Scenario (Step Answer Result)

/-- What the demonstration tells by itself. -/
inductive Notice
  /-- A turn was handled. -/
  | handled (turn : Nat) (o : EmitOutcome)
  /-- All turns were played. -/
  | finished (stats : Publisher.Stats)
  deriving DecidableEq, Repr

open Log in
/-- The line of a report. -/
def Notice.line : Notice → Line
  | .handled turn o =>
    ⟨.info, "chat turn handled", [("turn", number turn), ("outcome", o.name)]⟩
  | .finished stats =>
    ⟨.info, "demo finished", [("accepted", number stats.accepted),
      ("rejected", number stats.rejected), ("delivered", number stats.eventsDelivered),
      ("dropped", number (stats.eventsDropped + stats.queueFull))]⟩

/-- The name of a trace: its turn with four digits at least. -/
def traceName (turn : Nat) : String :=
  let digits := toString turn
  "trace-" ++ String.ofList (List.replicate (4 - digits.length) '0') ++ digits

/-- The headers of a turn. -/
def headers (conversation : String) (turn : Nat) : List (String × List UInt8) :=
  let names : Request.HeaderNames := {}
  [(names.trace, traceName turn), (names.user, "demo-user"), (names.dept, "support"),
    (names.conversation, conversation), (names.turn, toString turn)].map fun h =>
      (h.1, Text.utf8Bytes h.2)

/-- How long the retrieval of a turn takes, in milliseconds. -/
def retrievalMillis (turn : Nat) : Nat := 20 + turn % 7 * 5

/-- How long the generation of every turn takes, in milliseconds. -/
def generationMillis : Nat := 40

/-- What a turn retrieves. -/
def retrieval (turn : Nat) : Request.Retrieval where
  retriever := "hybrid-bm25"
  topK := 3
  hits := [⟨"kb-returns", "c-" ++ toString turn, .ofDecimal false 82 (-2)⟩,
    ⟨"kb-shipping", "c-1", .ofDecimal false 47 (-2)⟩]

/-- Whether personal data is found in a turn. -/
def hasPersonalData (turn : Nat) : Bool := turn % 4 = 0

/-- The chat turn event of a turn. -/
def chatFields (turn : Nat) : Guards.ChatFields where
  intent := "order_status"
  route := "rag"
  domain := "commerce"
  ragUsed := true
  piiInput := hasPersonalData turn

/-- What is thought of the turn before this one. -/
def opinion (turn : Nat) : Feedback := if turn % 3 = 0 then .dislike else .like

/-- The steps of a turn within its request. -/
def turnSteps (conversation : String) (turn : Nat) : List Step :=
  [.sleep (retrievalMillis turn), .scoped (.setStage "retrieval" (retrievalMillis turn)),
    .scoped (.setRetrieval (retrieval turn))] ++
  (if hasPersonalData turn then [.emit (.security "pii" "pii-email-001")] else []) ++
  [.sleep generationMillis, .scoped (.setStage "generation" generationMillis),
    .emit (.chatTurn (chatFields turn))] ++
  (if 1 < turn then [.emit (.feedback (opinion turn) conversation (turn - 1))] else [])

/-- The turns of a demonstration. -/
def turnNumbers (a : Arguments) : List Nat := (List.range a.turns).map (· + 1)

/-- All steps of a demonstration. -/
def script (a : Arguments) : List Step :=
  .start true ::
    (turnNumbers a).map (fun turn =>
      .request (headers a.conversation turn) {} (turnSteps a.conversation turn)) ++
    [.stop]

/-- The lines of a step of a turn; the step that emits the chat turn tells how it was handled. -/
def stepLines (turn : Nat) (step : Step) : Result → List Log.Line
  | .mk answer _ _ logs =>
    match step, answer with
    | .emit (.chatTurn _), .emitted o => logs ++ [(Notice.handled turn o).line]
    | _, _ => logs

/-- The lines of a turn. -/
def turnLines (conversation : String) (turn : Nat) : Result → List Log.Line
  | .mk (.steps rs) _ _ logs =>
    (List.zipWith (stepLines turn) (turnSteps conversation turn) rs).flatten ++ logs
  | .mk _ _ _ logs => logs

/-- The lines of all steps; before the turns comes the start and after them the end. -/
def lines (a : Arguments) : List Result → List Log.Line
  | [] => []
  | .mk _ _ _ logs :: rest =>
    logs ++ (List.zipWith (turnLines a.conversation) (turnNumbers a) rest).flatten ++
      (rest.drop a.turns).flatMap fun
        | .mk _ _ _ logs => logs

/-- How a demonstration ended. -/
inductive Ending
  /-- All turns were played. -/
  | finished
  /-- It could not go on. -/
  | failed (reason : String)
  /-- There was nothing to play. -/
  | misused (fault : ArgumentFault)
  deriving DecidableEq, Repr

/-- The exit code of the process. -/
def Ending.code : Ending → Nat
  | .finished => 0
  | .failed _ => 1
  | .misused .usageWanted => 0
  | .misused _ => 2

/-- What a demonstration left behind. -/
structure Report where
  /-- How it ended. -/
  ending : Ending
  /-- What it told, in order. -/
  lines : List Log.Line := []
  /-- The requests that arrived at the collector. -/
  posts : List Post := []

/-- The settings of a demonstration: a collector of the command line also enables the relay. -/
def settings (a : Arguments) (s : Settings) : Settings :=
  match a.collectorUrl with
  | none => s
  | some url => { s with collectorUrl := some url, enabled := true }

/-- Plays the turns with a publisher. -/
def play (a : Arguments) (n : Network) (publisher : Publisher.State) : Report :=
  let world := Scenario.Setup.run ⟨{ publisher }, script a⟩
  let posts :=
    match Collector.ofSettings publisher.settings with
    | .ok c => n.received c world.publisher.handed
    | .error _ => []
  { ending := .finished
    lines := lines a world.results ++ [(Notice.finished world.publisher.stats).line]
    posts }

/-- Starts a publisher and leaves it at once. -/
def startOnly (publisher : Publisher.State) : List Log.Line :=
  let world := Scenario.Setup.run ⟨{ publisher }, [.start true]⟩
  lines {} world.results

/-- Runs a demonstration with arguments and variables. -/
def run (arguments : List String) (environment : Settings.Lookup) (n : Network) : Report :=
  match Arguments.ofList arguments with
  | .error fault => { ending := .misused fault }
  | .ok a =>
    match Settings.load environment with
    | .error e => { ending := .failed e.message }
    | .ok loaded =>
      let first := Settings.loadLog environment
      match Publisher.ofSettings (settings a loaded) n.transport [] with
      | .error e => { ending := .failed e.message, lines := first }
      | .ok publisher =>
        let first := first ++ publisher.notices.map Publisher.Notice.line
        if a.turns = 0 || Text.isHeaderValue a.conversation then
          let report := play a n publisher
          { report with lines := first ++ report.lines }
        else
          { ending := .failed "failed to parse header value"
            lines := first ++ startOnly publisher }

/-- The variable that holds the threshold of the log. -/
def thresholdKey : String := "EVENT_RELAY_LOG"

/-- The lines that the threshold keeps, as text. -/
def Report.log (r : Report) (environment : Settings.Lookup) : List String :=
  let threshold := Log.Threshold.ofText (environment thresholdKey)
  (r.lines.filter threshold.keeps).map Log.Line.text

/-- What is told about a failure. -/
def Ending.complaint : Ending → Option String
  | .failed reason => some ("Error: " ++ reason)
  | _ => none

end EventRelay.Demo
