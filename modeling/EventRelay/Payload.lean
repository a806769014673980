import EventRelay.Label
import EventRelay.Text.Blank

/-!
# Payloads

The kind of an event fixes the shape of its payload. Apart from the conversation that a feedback
refers to, payloads carry labels, closed words, truth values and numbers only.
-/

namespace EventRelay

/-- The kinds of events that the collector knows. -/
inductive EventKind
  /-- A completed chat turn. -/
  | chatTurn
  /-- A request blocked by a rule. -/
  | security
  /-- Feedback on an earlier turn. -/
  | feedback
  deriving DecidableEq, Repr

/-- The word for a kind on the wire. -/
def EventKind.word : EventKind → String
  | .chatTurn => "CHAT_TURN"
  | .security => "SECURITY"
  | .feedback => "FEEDBACK"

/-- The kind with the given word. -/
def EventKind.ofWord? (s : String) : Option EventKind :=
  [EventKind.chatTurn, .security, .feedback].find? (·.word = s)

/-- A kind as JSON. -/
def EventKind.toJson (k : EventKind) : Json := .ofString k.word

/-- The closed set of feedback values, in their order. -/
inductive Feedback
  /-- Positive feedback. -/
  | like
  /-- Negative feedback. -/
  | dislike
  /-- Feedback withdrawn or neutral. -/
  | neutral
  deriving DecidableEq, Repr

namespace Feedback

/-- The word for a feedback value. -/
def word : Feedback → String
  | .like => "like"
  | .dislike => "dislike"
  | .neutral => "neutral"

/-- The value with exactly the given word. -/
def ofWord? (s : String) : Option Feedback :=
  [Feedback.like, .dislike, .neutral].find? (·.word = s)

/-- Lower case for ASCII letters. -/
def lower (s : String) : String := String.ofList (s.toList.map Char.toLower)

/-- Reads a feedback word in any ASCII case with blanks around it. -/
def ofText (s : String) : Except EventError Feedback :=
  let word := lower (Text.trim s)
  match ofWord? word with
  | some f => .ok f
  | none => .error (.unknownFeedback word)

/-- The position in the order of values. -/
def rank : Feedback → Nat
  | .like => 0
  | .dislike => 1
  | .neutral => 2

/-- Feedback values in order. -/
def sort (fs : List Feedback) : List Feedback := fs.mergeSort fun a b => a.rank ≤ b.rank

/-- Sorting gathers the equal values, in the order of values. -/
theorem sort_eq (fs : List Feedback) : sort fs =
    List.replicate (fs.count .like) .like ++ List.replicate (fs.count .dislike) .dislike ++
      List.replicate (fs.count .neutral) .neutral := by
  have ordered : (sort fs).Pairwise fun a b => decide (a.rank ≤ b.rank) = true :=
    List.pairwise_mergeSort (fun _ _ _ => by simpa using Nat.le_trans)
      (fun _ _ => by simpa using Nat.le_total _ _) fs
  refine List.Perm.eq_of_pairwise ?_ ordered ?_ ((List.mergeSort_perm _ _).trans ?_)
  · intro a b _ _
    cases a <;> cases b <;> decide
  · simp [List.pairwise_append, List.pairwise_replicate, List.mem_replicate, rank]
  · refine List.perm_iff_count.mpr fun f => ?_
    cases f <;> simp [List.count_replicate]

/-- A feedback value as JSON. -/
def toJson (f : Feedback) : Json := .ofString f.word

@[simp] theorem ofWord?_word (f : Feedback) : ofWord? f.word = some f := by
  cases f <;> decide

end Feedback

/-- One retrieved chunk that contributed to an answer. The type leaves the score free, since not
every chunk is made by `RagSource.ofScore`: a chunk that is read from JSON passes no check of its
own. -/
structure RagSource where
  /-- The document. -/
  doc : Label
  /-- The chunk of the document. -/
  chunk : Label
  /-- The score of the retriever. -/
  score : Binary64
  deriving DecidableEq, Repr

/-- A chunk with a finite score. -/
def RagSource.ofScore (doc chunk : Label) (score : Binary64) : Except EventError RagSource :=
  if score.isFinite then .ok ⟨doc, chunk, score⟩
  else .error (.invalidPayload "score" "score must be finite")

/-- Retrieval behind one chat turn. -/
structure RagInfo where
  /-- The retriever. -/
  retriever : Label
  /-- How many results were asked for. -/
  topK : Nat
  /-- The chunks in ranking order. -/
  sources : List RagSource
  deriving DecidableEq, Repr

/-- The payload of a chat turn. -/
structure ChatTurn where
  /-- The main intent. -/
  intent : Label
  /-- The route chosen. -/
  route : Label
  /-- The business domain of the answer. -/
  domain : Label
  /-- Whether retrieval contributed. -/
  ragUsed : Bool
  /-- End-to-end latency in milliseconds. -/
  latencyTotal : Nat
  /-- Personal data was found in the input. -/
  piiInput : Bool
  /-- Personal data was found in the output. -/
  piiOutput : Bool
  /-- The class of the error when the turn failed. -/
  errorCode : Option Label := none
  /-- Retrieval, when it ran. -/
  rag : Option RagInfo := none
  deriving DecidableEq, Repr

/-- The payload of a security event. -/
structure SecurityBlock where
  /-- The kind of block. -/
  blockType : Label
  /-- Whether the request was blocked. -/
  blocked : Bool
  /-- The rule behind the block. -/
  rule : Label
  deriving DecidableEq, Repr

/-- The payload of a feedback event. -/
structure FeedbackNote where
  /-- The value given. -/
  feedback : Feedback
  /-- The conversation it refers to. -/
  conversation : String
  /-- The turn it refers to. -/
  turn : Int
  deriving DecidableEq, Repr

/-- The payload of an event. -/
inductive Payload
  /-- A chat turn. -/
  | chatTurn (p : ChatTurn)
  /-- A security block. -/
  | security (p : SecurityBlock)
  /-- A feedback. -/
  | feedback (p : FeedbackNote)
  deriving DecidableEq, Repr

/-- The kind that goes with a payload. -/
def Payload.kind : Payload → EventKind
  | .chatTurn _ => .chatTurn
  | .security _ => .security
  | .feedback _ => .feedback

/-- A member that is left out when there is no value. -/
def Json.member? {α : Type} (name : String) (f : α → Json) : Option α → List (String × Json)
  | none => []
  | some a => [(name, f a)]

/-- A chunk as JSON. -/
def RagSource.toJson (s : RagSource) : Json :=
  .record [("docId", s.doc.toJson), ("chunkId", s.chunk.toJson), ("score", .ofBinary64 s.score)]

/-- Retrieval as JSON. -/
def RagInfo.toJson (r : RagInfo) : Json :=
  .record [("retriever", r.retriever.toJson), ("topK", .ofNat r.topK),
    ("sources", .array (r.sources.map RagSource.toJson))]

/-- A chat turn as JSON; absent parts are left out. -/
def ChatTurn.toJson (p : ChatTurn) : Json :=
  .record ([("intentMain", p.intent.toJson), ("routeType", p.route.toJson),
    ("domain", p.domain.toJson), ("ragUsed", .bool p.ragUsed),
    ("latencyMsTotal", .ofNat p.latencyTotal), ("piiDetectedInput", .bool p.piiInput),
    ("piiDetectedOutput", .bool p.piiOutput)] ++
    Json.member? "errorCode" Label.toJson p.errorCode ++
    Json.member? "ragInfo" RagInfo.toJson p.rag)

/-- A security block as JSON. -/
def SecurityBlock.toJson (p : SecurityBlock) : Json :=
  .record [("blockType", p.blockType.toJson), ("blocked", .bool p.blocked),
    ("ruleId", p.rule.toJson)]

/-- A feedback as JSON. -/
def FeedbackNote.toJson (p : FeedbackNote) : Json :=
  .record [("feedback", p.feedback.toJson),
    ("targetConversationId", .ofString p.conversation), ("targetTurnId", .ofInt p.turn)]

/-- A payload as JSON, without its kind. -/
def Payload.toJson : Payload → Json
  | .chatTurn p => p.toJson
  | .security p => p.toJson
  | .feedback p => p.toJson

end EventRelay
