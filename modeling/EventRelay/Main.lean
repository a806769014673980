import EventRelay.Demo

/-!
# The command line

The command line plays the demonstration. There is no network at hand, so a collector that is asked
for is out of reach.
-/

namespace EventRelay.Demo

/-- How the command line is used. -/
def usage : List String :=
  ["Simulate chat requests emitting telemetry", "",
    "Usage: event-relay [OPTIONS]", "",
    "Options:",
    "  -n, --requests <REQUESTS>            Number of requests to simulate [default: 5]",
    "      --collector-url <COLLECTOR_URL>  Collector base URL",
    "      --conversation <CONVERSATION>    Conversation of the turns [default: demo-conversation]",
    "  -h, --help                           Print help"]

/-- What is told about arguments that cannot be used. -/
def ArgumentFault.message : ArgumentFault → String
  | .usageWanted => "usage"
  | .unexpected argument => "unexpected argument '" ++ argument ++ "'"
  | .valueMissing name => "a value is required for '" ++ name ++ "'"
  | .repeated name => "the argument '" ++ name ++ "' cannot be used multiple times"
  | .badCount value => "invalid value '" ++ value ++ "' for '--requests'"

/-- All variables that the demonstration reads. -/
def variableNames : List String :=
  open Settings in
  [thresholdKey, collectorUrlKey, collectorPathKey, authTokenKey, enabledKey, batchSizeKey,
    flushIntervalKey, maxQueueSizeKey, timeoutKey, retryOnceKey, retryDelayKey, shutdownTimeoutKey,
    sourceKey]

end EventRelay.Demo

open EventRelay in
/-- Runs the demonstration with the arguments and variables of the process. -/
def main (arguments : List String) : IO UInt32 := do
  let mut values : List (String × String) := []
  for name in Demo.variableNames do
    if let some value ← IO.getEnv name then
      values := (name, value) :: values
  let environment : Settings.Lookup := fun name => values.lookup name
  let report := Demo.run arguments environment .unreachable
  for line in report.log environment do
    IO.println line
  match report.ending with
  | .misused .usageWanted => Demo.usage.forM fun line => IO.println line
  | .misused fault => IO.eprintln ("error: " ++ fault.message)
  | ending => ending.complaint.toList.forM fun line => IO.eprintln line
  return report.ending.code.toUInt32
