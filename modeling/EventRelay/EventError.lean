import EventRelay.Text.Quoted

/-!
# Errors of events and their parts

Each error names its cause; the wording is in one place.
-/

namespace EventRelay

/-- Why an event, or a part of one, cannot be built. -/
inductive EventError
  /-- A text is no label; only the beginning of the text is kept. -/
  | invalidLabel (value reason : String)
  /-- A number in a payload is out of range. -/
  | invalidPayload (field reason : String)
  /-- A correlation field that the event kind needs is absent. -/
  | missingCorrelation (field : String)
  /-- A feedback word outside the closed set. -/
  | unknownFeedback (value : String)
  deriving DecidableEq, Repr

/-- The explanation given to a reader. -/
def EventError.message : EventError → String
  | .invalidLabel value reason => s!"invalid label `{value}`: {reason}"
  | .invalidPayload field reason => s!"invalid payload field `{field}`: {reason}"
  | .missingCorrelation field => s!"missing correlation field `{field}`"
  | .unknownFeedback value => s!"unsupported feedback value `{value}`"

/-- The error as logs show it. -/
def EventError.debug : EventError → String
  | .invalidLabel value reason =>
    "InvalidLabel \x7b value: " ++ Text.quoted value ++ ", reason: " ++ Text.quoted reason ++
      " \x7d"
  | .invalidPayload field reason =>
    "InvalidPayload \x7b field: " ++ Text.quoted field ++ ", reason: " ++ Text.quoted reason ++
      " \x7d"
  | .missingCorrelation field => "MissingCorrelation \x7b field: " ++ Text.quoted field ++ " \x7d"
  | .unknownFeedback value => "UnknownFeedback(" ++ Text.quoted value ++ ")"

end EventRelay
