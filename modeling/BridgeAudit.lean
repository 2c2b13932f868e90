import BridgeAudit.Text.Key
import BridgeAudit.Text.Blank
import BridgeAudit.Text.Digits
import BridgeAudit.Text.Quoted
import BridgeAudit.Number.Shortest
import BridgeAudit.Amount
import BridgeAudit.Json.Printer
import BridgeAudit.Json.Keys
import BridgeAudit.Json.Parser
import BridgeAudit.Calendar.Reader
import BridgeAudit.Record.Shapes
import BridgeAudit.Record.Date
import BridgeAudit.Timeline.Ingest
import BridgeAudit.Timeline.Totals
import BridgeAudit.Timeline.Stats
import BridgeAudit.Cycle.View
import BridgeAudit.Auditor.Client
import BridgeAudit.Session.Step
import BridgeAudit.Main
import BridgeAudit.Proofs.Timeline.Foreign
import BridgeAudit.Proofs.Timeline.InFlight
import BridgeAudit.Proofs.Timeline.Idempotence
import BridgeAudit.Proofs.Timeline.Isolation
import BridgeAudit.Proofs.Timeline.Linkage
import BridgeAudit.Proofs.Session.Cancellation
import BridgeAudit.Proofs.Session.Hearing
import BridgeAudit.Proofs.Session.Nesting
import BridgeAudit.Proofs.Session.Outcome
import BridgeAudit.Proofs.Session.Fetching
import BridgeAudit.Proofs.Session.Schedule
import BridgeAudit.Proofs.Json.Members
import BridgeAudit.Proofs.Record.Reading
import BridgeAudit.Proofs.Record.Spelling
import BridgeAudit.Proofs.Record.Lawful
import BridgeAudit.Proofs.Record.RoundTrip
import BridgeAudit.Proofs.Record.Faithful
import BridgeAudit.Proofs.Auditor.Paging
import BridgeAudit.Proofs.Json.Canonical
import BridgeAudit.Proofs.Record.Classification
import BridgeAudit.Proofs.Auditor.LastPage
import BridgeAudit.Proofs.Auditor.Join
import BridgeAudit.Proofs.Session.Watch
import BridgeAudit.Proofs.Session.Stopping
import BridgeAudit.Proofs.Calendar.Date
import BridgeAudit.Proofs.Text.Blank
import BridgeAudit.Proofs.Calendar.Parts
import BridgeAudit.Proofs.Calendar.Forms
import BridgeAudit.Proofs.Calendar.Serial
import BridgeAudit.Proofs.Timeline.Overdue
import BridgeAudit.Proofs.Record.Redating
import BridgeAudit.Proofs.Timeline.Sums
import BridgeAudit.Proofs.Timeline.Stability
import BridgeAudit.Proofs.Record.Structures
import BridgeAudit.Proofs.Timeline.Reordering
import BridgeAudit.Proofs.Timeline.Ambiguity
import BridgeAudit.Proofs.Record.KnownFields
import BridgeAudit.Proofs.Timeline.UnknownFields
import BridgeAudit.Proofs.Text.Numeral
import BridgeAudit.Proofs.Text.Amount
import BridgeAudit.Proofs.Auditor.Balance
import BridgeAudit.Proofs.Auditor.Address
import BridgeAudit.Proofs.Text.Unbroken
import BridgeAudit.Proofs.Record.Faults
import BridgeAudit.Proofs.Cycle.LogLines
import BridgeAudit.Proofs.Record.FieldKeys
