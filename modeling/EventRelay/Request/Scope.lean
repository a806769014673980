import EventRelay.Request.Claims
import EventRelay.Request.Headers
import EventRelay.Request.Metrics

/-!
# Scopes of requests

A scope is the state that belongs to one request: its correlation, its metrics and its claims.
Scopes are kept side by side under numbers; an operation on one leaves all others alone. At the
boundary of a request the scope is cleared, at the beginning before the correlation is set.
-/

namespace EventRelay.Request

/-- The state of one request. -/
structure Scope where
  /-- The correlation of the request. -/
  correlation : Correlation := {}
  /-- What was measured. -/
  metrics : Metrics := {}
  /-- Which events were attempted. -/
  claims : Claims := {}
  deriving DecidableEq, Repr, Inhabited

namespace Scope

/-- The state at the end of a request. -/
def cleared : Scope := {}

/-- The state at the beginning of a request. -/
def opened (c : Correlation) : Scope := { correlation := c }

/-- The scope as logs show it. -/
def debug (s : Scope) : String :=
  "RequestScope \x7b context: " ++ s.correlation.debug ++ ", .. \x7d"

end Scope

/-- Scopes are numbered in the order in which they are made. -/
abbrev ScopeId := Nat

/-- All scopes. -/
structure Scopes where
  /-- The state of each scope, by number. -/
  states : List Scope := []
  deriving Repr, Inhabited

namespace Scopes

/-- Makes an empty scope. -/
def create (s : Scopes) : Scopes × ScopeId := (⟨s.states ++ [Scope.cleared]⟩, s.states.length)

/-- The state of a scope. -/
def get (s : Scopes) (i : ScopeId) : Scope := s.states[i]?.getD Scope.cleared

/-- Replaces the state of a scope. -/
def put (s : Scopes) (i : ScopeId) (state : Scope) : Scopes := ⟨s.states.set i state⟩

/-- Changes the state of a scope. -/
def update (s : Scopes) (i : ScopeId) (f : Scope → Scope) : Scopes := s.put i (f (s.get i))

/-- A change of one scope is not seen in another. -/
theorem get_put_ne (s : Scopes) {i j : ScopeId} (state : Scope) (h : i ≠ j) :
    (s.put i state).get j = s.get j := by
  simp [get, put, h]

/-- A change is seen in the scope itself. -/
theorem get_put_self (s : Scopes) {i : ScopeId} (state : Scope) (h : i < s.states.length) :
    (s.put i state).get i = state := by
  simp [get, put, h]

end Scopes

end EventRelay.Request
