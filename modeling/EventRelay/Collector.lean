import EventRelay.Delivery
import EventRelay.Publisher.Phase
import EventRelay.Text.HeaderValue

/-!
# The HTTP collector

A collector is an address and an optional bearer token. A batch is sent as one request; it can be
formed unless the token holds a byte that no header may carry. The token is never shown.
-/

namespace EventRelay

/-- A collector that takes batches over HTTP. -/
structure Collector where
  /-- The batch endpoint. -/
  endpoint : Uri
  /-- The bearer token. -/
  authToken : Option String
  deriving DecidableEq, Repr

/-- An HTTP request that carries a batch. -/
structure Post where
  /-- Path and query of the endpoint. -/
  target : String
  /-- The headers that matter, by name in order. -/
  headers : List (String × String)
  /-- The encoded batch. -/
  body : String
  deriving DecidableEq, Repr

namespace Collector

/-- The collector that the settings describe. -/
def ofSettings (s : Settings) : Except PublisherError Collector :=
  match s.endpoint with
  | none => .error (.transport "collector URL is not configured")
  | some url =>
    match Uri.parse .strict url with
    | .error fault => .error (.transport ("invalid collector endpoint: " ++ fault.message))
    | .ok endpoint => .ok ⟨endpoint, s.authToken⟩

/-- The collector as logs show it, without the token. -/
def debug (c : Collector) : String :=
  "HttpCollector \x7b endpoint: " ++ c.endpoint.text ++ ", authenticated: " ++
    Settings.debugBool c.authToken.isSome ++ ", .. \x7d"

/-- The headers of every request. The token is put behind its word as it stands, blanks around it
included. -/
def headers (c : Collector) : Except DeliveryError (List (String × String)) :=
  let content := ("content-type", "application/json")
  match c.authToken with
  | none => .ok [content]
  | some token =>
    let value := "Bearer " ++ token
    if Text.isHeaderValue value then .ok [("authorization", value), content]
    else .error (.transport "failed to build request: failed to parse header value")

/-- The request for a batch. -/
def post (c : Collector) (batch : Envelope) : Except DeliveryError Post :=
  c.headers.map fun headers => ⟨c.endpoint.target, headers, batch.body⟩

end Collector

end EventRelay
