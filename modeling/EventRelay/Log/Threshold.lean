import EventRelay.Log

/-!
# Thresholds of logs

A threshold keeps the lines of its level and of all more severe ones. It is read from a list of
words with commas between them, of which the last that names a level counts. Without a text the
threshold is `INFO`; a blank list keeps errors only.
-/

namespace EventRelay.Log

/-- Which lines are kept; `none` keeps nothing. -/
abbrev Threshold := Option Level

/-- Whether a threshold keeps a line. -/
def Threshold.keeps (t : Threshold) (l : Line) : Bool :=
  match t with
  | none => false
  | some least => least.rank ≤ l.level.rank

/-- The threshold that a word names, in any ASCII case or as a digit. -/
def Threshold.ofWord? (word : List Char) : Option Threshold :=
  match String.ofList (word.map Char.toLower) with
  | "off" => some none
  | "0" => some none
  | "error" => some (some .error)
  | "1" => some (some .error)
  | "warn" => some (some .warn)
  | "2" => some (some .warn)
  | "info" => some (some .info)
  | "3" => some (some .info)
  | "debug" => some (some .debug)
  | "4" => some (some .debug)
  | "trace" => some (some .trace)
  | "5" => some (some .trace)
  | _ => none

/-- The threshold that words ask for: the last that names one counts. -/
def Threshold.ofWords (words : List (List Char)) : Threshold :=
  if words.all List.isEmpty then some .error
  else (words.filterMap Threshold.ofWord?).getLast?.getD none

/-- The threshold that a text asks for. -/
def Threshold.ofText : Option String → Threshold
  | none => some .info
  | some text => ofWords (text.toList.splitOn ',')

end EventRelay.Log
