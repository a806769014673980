import EventRelay.Settings

/-!
# Phases of a publisher

A publisher is stopped, running or stopping. It starts once from stopped, stops from stopped or
running, and finishes from stopping; no other transition exists.
-/

namespace EventRelay.Publisher

/-- The phases of a publisher. -/
inductive Phase
  /-- No flush loop is running. -/
  | stopped
  /-- The flush loop is running. -/
  | running
  /-- The loop is ending and the final flush is pending. -/
  | stopping
  deriving DecidableEq, Repr

/-- What moves a publisher from phase to phase. -/
inductive Transition
  /-- The flush loop starts. -/
  | start
  /-- A shutdown begins. -/
  | stop
  /-- The shutdown is complete. -/
  | finish
  deriving DecidableEq, Repr

/-- The name of a phase. -/
def Phase.name : Phase → String
  | .stopped => "Stopped"
  | .running => "Running"
  | .stopping => "Stopping"

/-- The name of a transition. -/
def Transition.name : Transition → String
  | .start => "Start"
  | .stop => "Stop"
  | .finish => "Finish"

/-- The phase after a transition, where it is allowed. -/
def Phase.next? : Phase → Transition → Option Phase
  | .stopped, .start => some .running
  | .running, .stop => some .stopping
  | .stopped, .stop => some .stopping
  | .stopping, .finish => some .stopped
  | _, _ => none

/-- A transition always leads to another phase. -/
theorem Phase.next?_ne {p q : Phase} {t : Transition} (h : p.next? t = some q) : q ≠ p := by
  cases p <;> cases t <;> simp_all [Phase.next?] <;> subst h <;> simp

end EventRelay.Publisher

namespace EventRelay

/-- Why a publisher cannot be made or started. -/
inductive PublisherError
  /-- The settings are refused. -/
  | settings (e : SettingsError)
  /-- The collector cannot be set up. -/
  | transport (reason : String)
  /-- There is nothing that could run the flush loop. -/
  | noRuntime
  /-- The phase does not allow the transition. -/
  | invalidTransition (phase : Publisher.Phase) (transition : Publisher.Transition)
  deriving DecidableEq, Repr

namespace PublisherError

/-- The explanation given to a reader. -/
def message : PublisherError → String
  | .settings e => e.message
  | .transport reason => s!"collector transport not configured: {reason}"
  | .noRuntime => "publisher must be started from within a tokio runtime"
  | .invalidTransition phase transition =>
    "invalid publisher transition from " ++ phase.name ++ " via " ++ transition.name

/-- The error as logs show it. -/
def debug : PublisherError → String
  | .settings (.invalidValue key value reason) =>
    "Config(InvalidValue \x7b key: " ++ Text.quoted key ++ ", value: " ++ Text.quoted value ++
      ", reason: " ++ Text.quoted reason ++ " \x7d)"
  | .settings (.invalid reason) => "Config(Invalid(" ++ Text.quoted reason ++ "))"
  | .transport reason => "Transport \x7b reason: " ++ Text.quoted reason ++ " \x7d"
  | .noRuntime => "NoRuntime"
  | .invalidTransition phase transition =>
    "InvalidTransition \x7b from: " ++ phase.name ++ ", event: " ++ transition.name ++ " \x7d"

end PublisherError

end EventRelay
