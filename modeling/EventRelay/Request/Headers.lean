import EventRelay.Correlation
import EventRelay.Log
import EventRelay.Text.Blank
import EventRelay.Text.HeaderValue
import EventRelay.Text.Integer

/-!
# Correlation from request headers

Header names are compared without regard to case and the first value of a name counts. A value is
read only if all its bytes are visible ASCII, spaces or tabs; it is trimmed, and a blank value
counts as absent. A turn that is no signed 64-bit integer is ignored and reported.
-/

namespace EventRelay.Request

/-- The headers of a request: lower-case names with the bytes of their values, in order. -/
structure Headers where
  /-- Name and value of each header. -/
  entries : List (String × List UInt8)
  deriving DecidableEq, Repr

/-- The names of the headers that carry the correlation. -/
structure HeaderNames where
  /-- The header of the trace. -/
  trace : String := "x-trace-id"
  /-- The header of the user. -/
  user : String := "x-user-id"
  /-- The header of the department. -/
  dept : String := "x-dept-id"
  /-- The header of the conversation. -/
  conversation : String := "x-conversation-id"
  /-- The header of the turn. -/
  turn : String := "x-turn-id"
  deriving DecidableEq, Repr

/-- Something that happens at the boundary of a request. -/
inductive Notice
  /-- The turn header was ignored. -/
  | turnIgnored (raw : String) (fault : Text.IntegerFault)
  /-- A request began. -/
  | opened (c : Correlation)
  /-- A request ended. -/
  | closed
  /-- A correlation was set outside a request. -/
  | correlationIgnored
  deriving DecidableEq, Repr

/-- The line of a report. -/
def Notice.line : Notice → Log.Line
  | .turnIgnored raw fault =>
    ⟨.debug, "ignoring unparseable turn id header", [("raw", raw), ("err", fault.debug)]⟩
  | .opened c => ⟨.trace, "request scope opened", [("context", c.debug)]⟩
  | .closed => ⟨.trace, "request scope closed", []⟩
  | .correlationIgnored => ⟨.debug, "set_context called outside a request scope; ignored", []⟩

namespace Headers

/-- Characters of a header name. -/
def isNameChar (c : Char) : Bool :=
  c.isAlphanum || "!#$%&'*+-.^_|~".toList.contains c || c = '\x60'

/-- A legal header name. -/
def isName (s : String) : Bool := s ≠ "" && s.toList.all isNameChar

/-- A name in lower case. -/
def fold (s : String) : String := String.ofList (s.toList.map Char.toLower)

/-- Checks names and values. -/
def ofList? (pairs : List (String × List UInt8)) : Option Headers :=
  if pairs.all fun p => isName p.1 && p.2.all Text.isHeaderByte then
    some ⟨pairs.map fun p => (fold p.1, p.2)⟩
  else none

/-- The first value of a name; an illegal name has none. -/
def first? (h : Headers) (name : String) : Option (List UInt8) :=
  if isName name then (h.entries.find? (·.1 = fold name)).map Prod.snd else none

/-- Bytes that are read as text. -/
def isTextByte (b : UInt8) : Bool := b == 9 || (32 ≤ b && b ≤ 126)

/-- The text of a value, if all its bytes are read as text. -/
def valueText (bytes : List UInt8) : Option String :=
  if bytes.all isTextByte then some (String.ofList (bytes.map fun b => Char.ofNat b.toNat))
  else none

/-- The trimmed text of the first value of a name, if it is not blank. -/
def text? (h : Headers) (name : String) : Option String :=
  (((h.first? name).bind valueText).map Text.trim).filter (· ≠ "")

/-- The correlation that the headers carry, and what has to be reported about them. -/
def extract (names : HeaderNames) (h : Headers) : Correlation × List Notice :=
  let (turn, notices) : Option Int × List Notice :=
    match h.text? names.turn with
    | none => (none, [])
    | some raw =>
      match Text.readSigned64 raw.toList with
      | .ok n => (some n, [])
      | .error fault => (none, [.turnIgnored raw fault])
  ({ trace := h.text? names.trace
     user := h.text? names.user
     dept := h.text? names.dept
     conversation := h.text? names.conversation
     turn }, notices)

end Headers

end EventRelay.Request
