import EventRelay.Payload

/-!
# Payloads out of JSON

Labels are read by the check that makes them. A chunk is read past the check of its score: that the
score is finite is left to the reader of numbers. A payload whose kind is not told is held first and
is then the first of chat turn, security block and feedback that fits.
-/

namespace EventRelay

/-- A feedback word. -/
def Feedback.ofJson? (j : Json) : Option Feedback := j.toName?.bind Feedback.ofWord?

/-- The word of a kind. -/
def EventKind.ofJson? (j : Json) : Option EventKind := j.toName?.bind EventKind.ofWord?

/-- A chunk. Its score is not checked as `RagSource.ofScore` does. -/
def RagSource.ofJson? (j : Json) : Option RagSource := do
  let fields ← j.fields? ["docId", "chunkId", "score"]
  match fields.values with
  | [doc, chunk, score] =>
    return {
      doc := ← Json.required Label.ofJson? doc
      chunk := ← Json.required Label.ofJson? chunk
      score := ← Json.required Json.toBinary64? score }
  | _ => none

/-- Retrieval; without sources there are none. -/
def RagInfo.ofJson? (j : Json) : Option RagInfo := do
  let fields ← j.fields? ["retriever", "topK", "sources"]
  match fields.values with
  | [retriever, topK, sources] =>
    return {
      retriever := ← Json.required Label.ofJson? retriever
      topK := ← Json.required (Json.toNatUpTo? Text.maxU32) topK
      sources := ← Json.withDefault [] (Json.toList? RagSource.ofJson?) sources }
  | _ => none

/-- The names of the fields of a chat turn, in order. -/
def ChatTurn.fieldNames : List String :=
  ["intentMain", "routeType", "domain", "ragUsed", "latencyMsTotal", "piiDetectedInput",
    "piiDetectedOutput", "errorCode", "ragInfo"]

/-- A chat turn. -/
def ChatTurn.ofJson? (j : Json) : Option ChatTurn := do
  let fields ← j.fields? ChatTurn.fieldNames
  match fields.values with
  | [intent, route, domain, ragUsed, latency, piiInput, piiOutput, errorCode, rag] =>
    return {
      intent := ← Json.required Label.ofJson? intent
      route := ← Json.required Label.ofJson? route
      domain := ← Json.required Label.ofJson? domain
      ragUsed := ← Json.required Json.toBool? ragUsed
      latencyTotal := ← Json.required (Json.toNatUpTo? Text.maxU64) latency
      piiInput := ← Json.required Json.toBool? piiInput
      piiOutput := ← Json.required Json.toBool? piiOutput
      errorCode := ← Json.optional Label.ofJson? errorCode
      rag := ← Json.optional RagInfo.ofJson? rag }
  | _ => none

/-- A security block. -/
def SecurityBlock.ofJson? (j : Json) : Option SecurityBlock := do
  let fields ← j.fields? ["blockType", "blocked", "ruleId"]
  match fields.values with
  | [blockType, blocked, rule] =>
    return {
      blockType := ← Json.required Label.ofJson? blockType
      blocked := ← Json.required Json.toBool? blocked
      rule := ← Json.required Label.ofJson? rule }
  | _ => none

/-- A feedback. -/
def FeedbackNote.ofJson? (j : Json) : Option FeedbackNote := do
  let fields ← j.fields? ["feedback", "targetConversationId", "targetTurnId"]
  match fields.values with
  | [feedback, conversation, turn] =>
    return {
      feedback := ← Json.required Feedback.ofJson? feedback
      conversation := ← Json.required Json.toText? conversation
      turn := ← Json.required Json.toInt64? turn }
  | _ => none

/-- A payload of any kind: the first that fits. -/
def Payload.ofJson? (j : Json) : Option Payload :=
  if j.holdable Json.holdDepth then
    match ChatTurn.ofJson? j with
    | some p => some (.chatTurn p)
    | none =>
      match SecurityBlock.ofJson? j with
      | some p => some (.security p)
      | none => (FeedbackNote.ofJson? j).map .feedback
  else none

end EventRelay
