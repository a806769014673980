import EventRelay.Text.Integer

/-!
# Arguments of the demonstration

There are three options with a value each: the number of turns, the address of the collector and the
conversation. A value follows its option as the next argument or after an equals sign; behind the
short option it may also stand at once. No option may be given twice, and nothing else is taken. A
next argument that looks like an option is no value.
-/

namespace EventRelay.Demo

/-- What the demonstration is told. -/
structure Arguments where
  /-- How many turns to play. -/
  turns : Nat := 5
  /-- The address of the collector, if it is given. -/
  collectorUrl : Option String := none
  /-- The conversation of all turns. -/
  conversation : String := "demo-conversation"
  deriving DecidableEq, Repr

/-- Why there is nothing to play. -/
inductive ArgumentFault
  /-- The usage was asked for. -/
  | usageWanted
  /-- An argument is not known. -/
  | unexpected (argument : String)
  /-- An option lacks its value. -/
  | valueMissing (option : String)
  /-- An option was given twice. -/
  | repeated (option : String)
  /-- A number of turns cannot be read. -/
  | badCount (value : String)
  deriving DecidableEq, Repr

/-- The options. -/
inductive ArgumentName
  /-- The number of turns. -/
  | requests
  /-- The address of the collector. -/
  | collectorUrl
  /-- The conversation. -/
  | conversation
  deriving DecidableEq, Repr

/-- What follows the two dashes in the long spelling of an option. -/
def ArgumentName.key : ArgumentName → String
  | .requests => "requests"
  | .collectorUrl => "collector-url"
  | .conversation => "conversation"

/-- The option with the given key. -/
def ArgumentName.ofKey? (key : String) : Option ArgumentName :=
  [ArgumentName.requests, .collectorUrl, .conversation].find? (·.key = key)

/-- The long spelling of an option. -/
def ArgumentName.spelling (name : ArgumentName) : String := "--" ++ name.key

/-- How an argument reads. -/
inductive Argument
  /-- An option, perhaps with its value. -/
  | option (name : ArgumentName) (value : Option String)
  /-- The question for the usage. -/
  | usage
  /-- The end of all options. -/
  | endOfOptions
  /-- Anything else. -/
  | other (text : String)
  deriving DecidableEq, Repr

/-- Reads what follows two dashes: a key and, behind an equals sign, a value. -/
def Argument.ofLong (text : List Char) : Argument :=
  let key := String.ofList (text.takeWhile (· ≠ '='))
  let value :=
    match text.dropWhile (· ≠ '=') with
    | [] => none
    | _ :: value => some (String.ofList value)
  match ArgumentName.ofKey? key with
  | some name => .option name value
  | none => if key = "help" && value.isNone then .usage else .other ("--" ++ String.ofList text)

/-- Reads an argument. -/
def Argument.ofText (text : String) : Argument :=
  match text.toList with
  | ['-', '-'] => .endOfOptions
  | '-' :: '-' :: name => .ofLong name
  | ['-', 'n'] => .option .requests none
  | '-' :: 'n' :: '=' :: value => .option .requests (some (String.ofList value))
  | '-' :: 'n' :: value => .option .requests (some (String.ofList value))
  | '-' :: 'h' :: _ => .usage
  | _ => .other text

/-- Whether an argument can be the value of the option before it. -/
def Argument.isValue (text : String) : Bool := text.toList.head? ≠ some '-' || text = "-"

/-- The largest number of turns. -/
def maxTurns : Nat := Text.maxU32

/-- Reads a number of turns. -/
def readTurns (value : String) : Option Nat :=
  match Text.readSigned64 value.toList with
  | .ok n => if 0 ≤ n ∧ n ≤ maxTurns then some n.toNat else none
  | .error _ => none

namespace Arguments

/-- Gives an option its value. -/
def assign (a : Arguments) (name : ArgumentName) (value : String) :
    Except ArgumentFault Arguments :=
  match name with
  | .requests =>
    match readTurns value with
    | some turns => .ok { a with turns }
    | none => .error (.badCount value)
  | .collectorUrl => .ok { a with collectorUrl := some value }
  | .conversation => .ok { a with conversation := value }

/-- Reads arguments one after the other; `seen` are the options that have been given. -/
def readAll (a : Arguments) (seen : List ArgumentName) :
    List String → Except ArgumentFault Arguments
  | [] => .ok a
  | [text] =>
    match Argument.ofText text with
    | .option name value =>
      if seen.contains name then .error (.repeated name.spelling)
      else
        match value with
        | some value => a.assign name value
        | none => .error (.valueMissing name.spelling)
    | .usage => .error .usageWanted
    | .endOfOptions => .ok a
    | .other text => .error (.unexpected text)
  | text :: next :: rest =>
    match Argument.ofText text with
    | .option name value =>
      if seen.contains name then .error (.repeated name.spelling)
      else
        match value with
        | some value =>
          match a.assign name value with
          | .ok a => a.readAll (name :: seen) (next :: rest)
          | .error fault => .error fault
        | none =>
          if Argument.isValue next then
            match a.assign name next with
            | .ok a => a.readAll (name :: seen) rest
            | .error fault => .error fault
          else .error (.valueMissing name.spelling)
    | .usage => .error .usageWanted
    | .endOfOptions => .error (.unexpected next)
    | .other text => .error (.unexpected text)

/-- Reads the arguments of the command line. -/
def ofList (texts : List String) : Except ArgumentFault Arguments := readAll {} [] texts

end Arguments

end EventRelay.Demo
