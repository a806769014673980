import EventRelay.Collector
import EventRelay.Proofs.Settings.Loading

/-!
# The token of the settings

The token goes from its variable into the settings and from there into the collector, and nothing on
this way looks at it: to load or to set up something with a token is to do so without regard to the
token and to put the token in.
-/

namespace EventRelay

namespace Settings

/-- The same settings with a token. -/
def withToken (s : Settings) (token : String) : Settings := { s with authToken := some token }

/-- The same variables with a token. -/
def Lookup.withToken (lookup : Lookup) (token : String) : Lookup := fun key =>
  if key = authTokenKey then some token else lookup key

variable {lookup : Lookup} {key token : String}

/-- The other variables stay. -/
theorem value?_withToken (other : key ≠ authTokenKey) :
    value? (lookup.withToken token) key = value? lookup key := by
  rw [value?, Lookup.withToken, if_neg other, value?]

theorem setting_withToken {α : Type} {read : String → String → Except SettingsError α}
    {fallback : α} (other : key ≠ authTokenKey) :
    setting (lookup.withToken token) key read fallback = setting lookup key read fallback := by
  rw [setting, value?_withToken other, setting]

/-- A token that is not blank is given without the blanks around it. -/
theorem value?_withToken_token (filled : Text.trim token ≠ "") :
    value? (lookup.withToken token) authTokenKey = some (Text.trim token) := by
  rw [value?, Lookup.withToken, if_pos rfl, Option.map_some, Option.filter_some,
    if_pos (decide_eq_true filled)]

/-- Loading puts the token in and does not look at it. -/
theorem load_withToken (lookup : Lookup) (filled : Text.trim token ≠ "") :
    load (lookup.withToken token) = (load lookup).map (·.withToken (Text.trim token)) := by
  change _ = (fun s : Settings => s.withToken (Text.trim token)) <$> load lookup
  simp (disch := decide) only [load, value?_withToken_token filled, value?_withToken,
    setting_withToken, map_bind, map_pure]
  rfl

/-- What is told of the settings does not show the token. -/
theorem loadLog_withToken (lookup : Lookup) {a b : String} (left : Text.trim a ≠ "")
    (right : Text.trim b ≠ "") : loadLog (lookup.withToken a) = loadLog (lookup.withToken b) := by
  rw [loadLog, load_withToken lookup left, loadLog, load_withToken lookup right]
  cases load lookup <;> rfl

end Settings

namespace Collector

/-- The same collector with a token. -/
def withToken (c : Collector) (token : String) : Collector := { c with authToken := some token }

/-- A collector is set up without regard to the token. -/
theorem ofSettings_withToken (s : Settings) (token : String) :
    ofSettings (s.withToken token) = (ofSettings s).map (·.withToken token) := by
  have same : (s.withToken token).endpoint = s.endpoint := rfl
  unfold ofSettings
  rw [same]
  split
  · rfl
  · split <;> rfl

end Collector

end EventRelay
