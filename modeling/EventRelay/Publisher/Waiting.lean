/-!
# Waiting for a signal or a turn

A signal wakes one waiter for each notification: the oldest one, or, if nobody waits, the next one
to come. Notifications that nobody has taken merge into one. A waiter that leaves after it was woken
passes the notification on. A turn is held by one at a time and goes to the waiters in the order in
which they came; it is handed over without a moment in which it is free.
-/

namespace EventRelay.Publisher

/-- Activities are numbered in the order in which they begin. -/
abbrev ActivityId := Nat

/-- A signal for one waiter at a time. -/
structure Signal where
  /-- A notification that nobody has taken yet. -/
  stored : Bool := false
  /-- Those who wait, the oldest first. -/
  waiting : List ActivityId := []
  /-- Those who were woken and have not run since. -/
  called : List ActivityId := []
  deriving DecidableEq, Repr, Inhabited

namespace Signal

/-- Wakes the oldest waiter, or stores the notification. -/
def notify (s : Signal) : Signal :=
  match s.waiting with
  | [] => { s with stored := true }
  | i :: rest => { s with waiting := rest, called := s.called ++ [i] }

/-- Whether an activity finds a notification: it was woken, or it is new and one is stored. -/
def readyFor (s : Signal) (i : ActivityId) : Bool :=
  s.called.contains i || (!s.waiting.contains i && s.stored)

/-- Takes the notification that the activity has found. -/
def take (s : Signal) (i : ActivityId) : Signal :=
  if s.called.contains i then { s with called := s.called.erase i } else { s with stored := false }

/-- Joins the waiters. -/
def join (s : Signal) (i : ActivityId) : Signal :=
  if s.waiting.contains i || s.called.contains i then s else { s with waiting := s.waiting ++ [i] }

/-- Stops waiting; a notification that was not taken is passed on. -/
def leave (s : Signal) (i : ActivityId) : Signal :=
  if s.called.contains i then notify { s with called := s.called.erase i }
  else { s with waiting := s.waiting.erase i }

end Signal

/-- The right to run a flush cycle. -/
structure Turn where
  /-- Who holds it. -/
  holder : Option ActivityId := none
  /-- Who waits for it, the oldest first. -/
  waiting : List ActivityId := []
  deriving DecidableEq, Repr, Inhabited

namespace Turn

/-- Takes the turn if it is free, and otherwise joins the waiters. -/
def request (t : Turn) (i : ActivityId) : Turn :=
  match t.holder with
  | none => { t with holder := some i }
  | some _ => { t with waiting := t.waiting ++ [i] }

/-- Hands the turn to the oldest waiter. -/
def release (t : Turn) : Turn :=
  match t.waiting with
  | [] => { t with holder := none }
  | i :: rest => ⟨some i, rest⟩

/-- Gives up waiting, or the turn that was just handed over. -/
def withdraw (t : Turn) (i : ActivityId) : Turn :=
  if t.holder = some i then t.release else { t with waiting := t.waiting.erase i }

end Turn

end EventRelay.Publisher
