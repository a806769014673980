import EventRelay.Event
import EventRelay.Text.Quoted

/-!
# Log lines

Every part of the library describes what happened by a value of its own and renders it as a line: a
level, a message and named fields in order.
-/

namespace EventRelay.Log

/-- The severity of a line. -/
inductive Level
  /-- Finest detail. -/
  | trace
  /-- Detail for developers. -/
  | debug
  /-- Normal operation. -/
  | info
  /-- Something was not done. -/
  | warn
  /-- Events were lost. -/
  | error
  deriving DecidableEq, Repr

/-- The word for a level. -/
def Level.word : Level → String
  | .trace => "TRACE"
  | .debug => "DEBUG"
  | .info => "INFO"
  | .warn => "WARN"
  | .error => "ERROR"

/-- Levels in order of severity. -/
def Level.rank : Level → Nat
  | .trace => 0
  | .debug => 1
  | .info => 2
  | .warn => 3
  | .error => 4

/-- The value of a field. -/
inductive Value
  /-- A value that is shown as it is. -/
  | plain (content : String)
  /-- A word, which stands in quotes in the text of a line. -/
  | word (content : String)
  deriving DecidableEq, Repr

instance : Coe String Value := ⟨.plain⟩

/-- What a value says. -/
def Value.content : Value → String
  | .plain content => content
  | .word content => content

/-- A value in the text of a line. -/
def Value.text : Value → String
  | .plain content => content
  | .word content => Text.quoted content

/-- One line of a log. -/
structure Line where
  /-- The severity. -/
  level : Level
  /-- What happened. -/
  message : String
  /-- The details, by name. -/
  fields : List (String × Value) := []
  deriving DecidableEq, Repr

/-- A number as a field. -/
def number (n : Nat) : String := toString n

/-- A list of event identities as a field. -/
def sample (ids : List EventId) : String :=
  "[" ++ ", ".intercalate (ids.map EventId.debug) ++ "]"

/-- A line as text, without its time. -/
def Line.text (l : Line) : String :=
  l.level.word ++ " " ++ l.message ++
    String.join (l.fields.map fun f => " " ++ f.1 ++ "=" ++ f.2.text)

end EventRelay.Log
