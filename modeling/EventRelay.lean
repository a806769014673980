import EventRelay.Main
import EventRelay.Payload.Decode
import EventRelay.Payload.Draft
import EventRelay.Proofs.Publisher.Run
import EventRelay.Proofs.Publisher.Books
import EventRelay.Proofs.Publisher.Entries
import EventRelay.Proofs.Publisher.Line
import EventRelay.Proofs.Publisher.History
import EventRelay.Proofs.Publisher.Fifo
import EventRelay.Proofs.Publisher.Lifecycle
import EventRelay.Proofs.Publisher.Phases
import EventRelay.Proofs.Publisher.Shipments
import EventRelay.Proofs.Publisher.Conservation
import EventRelay.Proofs.Publisher.Discipline
import EventRelay.Proofs.Publisher.Finality
import EventRelay.Proofs.Publisher.AfterShutdown
import EventRelay.Proofs.Publisher.Permanence
import EventRelay.Proofs.Publisher.WakeUps
import EventRelay.Proofs.Publisher.Breakdowns
import EventRelay.Proofs.Publisher.Returning
import EventRelay.Proofs.Publisher.Interruption
import EventRelay.Proofs.Publisher.Bursts
import EventRelay.Proofs.Publisher.SizeTrigger
import EventRelay.Proofs.Publisher.Frames
import EventRelay.Proofs.Publisher.Answers
import EventRelay.Proofs.Publisher.Losses
import EventRelay.Proofs.Publisher.Retries
import EventRelay.Proofs.Publisher.Courses
import EventRelay.Proofs.Publisher.Undisturbed
import EventRelay.Proofs.Relay.Shares
import EventRelay.Proofs.Relay.Asking
import EventRelay.Proofs.Relay.Slots
import EventRelay.Proofs.Relay.Isolation
import EventRelay.Proofs.Relay.Receipts
import EventRelay.Proofs.Scenario.Interleaving
import EventRelay.Proofs.Scenario.Isolation
import EventRelay.Proofs.Scenario.Playing
import EventRelay.Proofs.Scenario.Accounts
import EventRelay.Proofs.Relay.Boundary
import EventRelay.Proofs.Scenario.Endings
import EventRelay.Proofs.Checks
import EventRelay.Proofs.Text.Trimming
import EventRelay.Proofs.Text.Decimal
import EventRelay.Proofs.Text.Utf8
import EventRelay.Proofs.Text.Lossy
import EventRelay.Proofs.Text.Ascii
import EventRelay.Proofs.Delivery.Reason
import EventRelay.Proofs.Binary64.Rounding
import EventRelay.Proofs.Binary64.Shortest
import EventRelay.Proofs.Json.Numerals
import EventRelay.Proofs.Json.Scores
import EventRelay.Proofs.Json.Reading
import EventRelay.Proofs.Json.Typed
import EventRelay.Proofs.Payload.Validity
import EventRelay.Proofs.Payload.RoundTrip
import EventRelay.Proofs.Relay.Vocabulary
import EventRelay.Proofs.Relay.BatchText
import EventRelay.Proofs.Guards.ChatTurns
import EventRelay.Proofs.Relay.Outcomes
import EventRelay.Proofs.Publisher.Summons
import EventRelay.Proofs.Publisher.Winding
import EventRelay.Proofs.Publisher.Finale
import EventRelay.Proofs.Publisher.Flights
import EventRelay.Proofs.Publisher.Awaiting
import EventRelay.Proofs.Publisher.ShuttingDown
import EventRelay.Proofs.Publisher.FinalFlush
import EventRelay.Proofs.Publisher.BoundedShutdown
import EventRelay.Proofs.Request.HeaderFields
import EventRelay.Proofs.Settings.Loading
import EventRelay.Proofs.Uri.WebAddress
import EventRelay.Proofs.Settings.Endpoint
import EventRelay.Proofs.Settings.Token
import EventRelay.Proofs.Collector.Requests
import EventRelay.Proofs.Publisher.Safeguards
import EventRelay.Proofs.Publisher.Secrecy
import EventRelay.Proofs.Request.Latency
import EventRelay.Proofs.Relay.Measurements
import EventRelay.Proofs.Json.Literals
import EventRelay.Proofs.Label.Grammar
import EventRelay.Proofs.Label.Order
import EventRelay.Proofs.Publisher.Walks
import EventRelay.Proofs.Publisher.Sessions
import EventRelay.Proofs.Log.Thresholds
import EventRelay.Proofs.Payload.Drafts
import EventRelay.Proofs.Scenario.Publishers
import EventRelay.Proofs.Demo.Arguments
import EventRelay.Proofs.Demo.Reports
