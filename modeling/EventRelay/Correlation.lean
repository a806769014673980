import EventRelay.EventError
import EventRelay.Json.Decode
import EventRelay.Text.Quoted

/-!
# Correlation of a request

The identifiers that tie events to a request. Every field may be absent; each kind of event says
which fields it needs, and an empty text counts as absent there.
-/

namespace EventRelay

/-- The correlation identifiers of one request. -/
structure Correlation where
  /-- The distributed trace. -/
  trace : Option String := none
  /-- The authenticated user. -/
  user : Option String := none
  /-- The department of the user. -/
  dept : Option String := none
  /-- The conversation of the request. -/
  conversation : Option String := none
  /-- The turn within the conversation. -/
  turn : Option Int := none
  deriving DecidableEq, Repr, Inhabited

namespace Correlation

/-- No field is known. -/
def empty : Correlation := {}

/-- Whether no field is known. -/
def isEmpty (c : Correlation) : Bool :=
  c.trace.isNone && c.user.isNone && c.dept.isNone && c.conversation.isNone && c.turn.isNone

@[simp] theorem isEmpty_iff (c : Correlation) : c.isEmpty = true ↔ c = empty := by
  rcases c with ⟨_ | _, _ | _, _ | _, _ | _, _ | _⟩ <;> simp [isEmpty, empty]

/-- Refuses a text that is absent or empty. -/
def demand (field : String) : Option String → Except EventError Unit
  | some s => if s = "" then .error (.missingCorrelation field) else .ok ()
  | none => .error (.missingCorrelation field)

/-- The text of a field that is taken into an event. Unlike a demand this refuses an absent text
only; an empty one would be taken as it is. -/
def present (field : String) : Option String → Except EventError String
  | some s => .ok s
  | none => .error (.missingCorrelation field)

/-- What security and feedback events need. -/
def requireIdentity (c : Correlation) : Except EventError Unit := do
  demand "traceId" c.trace
  demand "userId" c.user
  demand "deptId" c.dept

/-- What chat turns need. -/
def requireTurn (c : Correlation) : Except EventError Unit := do
  c.requireIdentity
  demand "conversationId" c.conversation
  match c.turn with
  | some _ => .ok ()
  | none => .error (.missingCorrelation "turnId")

/-- The names of the fields in JSON, in order. -/
def fieldNames : List String := ["traceId", "userId", "deptId", "conversationId", "turnId"]

/-- The correlation as a JSON object; an absent field is null. -/
def toJson (c : Correlation) : Json :=
  .record [("traceId", .ofOption .ofString c.trace), ("userId", .ofOption .ofString c.user),
    ("deptId", .ofOption .ofString c.dept), ("conversationId", .ofOption .ofString c.conversation),
    ("turnId", .ofOption .ofInt c.turn)]

/-- Reads a correlation. An object may leave fields out, an array must hold all five. -/
def ofJson? (j : Json) : Option Correlation := do
  let fields ← j.fields? fieldNames
  if fields.shape = .ordered && fields.values.any Option.isNone then none
  else
    match fields.values with
    | [trace, user, dept, conversation, turn] =>
      return {
        trace := ← Json.optional Json.toText? trace
        user := ← Json.optional Json.toText? user
        dept := ← Json.optional Json.toText? dept
        conversation := ← Json.optional Json.toText? conversation
        turn := ← Json.optional Json.toInt64? turn }
    | _ => none

/-- An optional number as logs show it. -/
def debugInt : Option Int → String
  | none => "None"
  | some n => s!"Some({n})"

/-- The correlation as logs show it. -/
def debug (c : Correlation) : String :=
  "RequestContext \x7b trace_id: " ++ Text.quotedOption c.trace ++
    ", user_id: " ++ Text.quotedOption c.user ++ ", dept_id: " ++ Text.quotedOption c.dept ++
    ", conversation_id: " ++ Text.quotedOption c.conversation ++
    ", turn_id: " ++ debugInt c.turn ++ " \x7d"

end Correlation

end EventRelay
