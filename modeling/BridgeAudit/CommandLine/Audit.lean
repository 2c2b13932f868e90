import BridgeAudit.CommandLine.Arguments
import BridgeAudit.CommandLine.Report
import BridgeAudit.Json.Printer

/-!
The run of an audit.

* `Outcome`: what has been written, and why the run has failed if it has.
* `Options.audit`: the run with given options: the options are checked, then the view is loaded and
  written, and then the ledger balance if it is wanted.
* `Options.helpText`, `Options.versionText`: what else can be written.
-/

namespace BridgeAudit

/-- What has been written, and why the run has failed if it has. -/
structure Outcome where
  /-- Pieces of text, each ended by a line break when it is written. -/
  written : List String := []
  failure : Option Failure := none
  deriving Repr

namespace Options

/-- A view as it is to be written. -/
def writeView (o : Options) (v : View) (now : Instant) : List String :=
  if o.json then [v.toJson.pretty] else Report.table v now o.policy.overdueAfter

/-- A ledger balance as it is to be written. -/
def writeBalance (o : Options) (b : Balance) : String :=
  if o.json then b.toJson.pretty else Report.balance b

/-- The run with a client. -/
def auditWith (o : Options) (client : Client) (now : Instant) : Exchange Outcome := do
  match ← client.load o.policy 1 now with
  | .error e => pure ⟨[], some (.load e)⟩
  | .ok view =>
      let written := o.writeView view now
      if o.ledgerBalance then
        match ← client.balance o.token with
        | .error e => pure ⟨written, some (.balance e)⟩
        | .ok b => pure ⟨written ++ [o.writeBalance b], none⟩
      else pure ⟨written, none⟩

/-- The log line for a client that begins to read. -/
def readingLine (client : Client) : LogLine :=
  ⟨.info, "Reading audit data from " ++ client.address⟩

/-- The run of an audit. Wrong options end it before anything is asked. -/
def audit (o : Options) (now : Instant) : Exchange Outcome :=
  match o.connection.check, o.policy.check, Client.connect o.connection with
  | .error e, _, _ => pure ⟨[], some (.connection e)⟩
  | _, .error e, _ => pure ⟨[], some (.policy e)⟩
  | _, _, .error e => pure ⟨[], some (.client e)⟩
  | _, _, .ok client => .log (readingLine client) (o.auditWith client now)

/-! ### Help and version -/

/-- The name of the program. -/
def programName : String := "reserve-audit-view"

/-- The name of the program and its version. -/
def versionText : String := programName ++ " 0.1.0"

/-- A flag and what it is for. -/
def helpLine (flag purpose : String) : String :=
  "  " ++ Report.leftAligned 32 ("--" ++ flag) ++ purpose

/-- All flags. -/
def helpText : List String :=
  ["Reconciled timeline of ledger mints/burns against custodial deposits/withdrawals", "",
    "Usage: " ++ programName ++ " [OPTIONS]", "", "Options:"] ++
    (Parameter.all.map fun p =>
      helpLine (p.flag ++ " <VALUE>")
        (p.purpose ++ ((p.environmentName.map fun n => " [env: " ++ n ++ "]").getD ""))) ++
    (Switch.all.map fun s => helpLine s.flag s.purpose) ++
    [helpLine "help" "Print help", helpLine "version" "Print version"]

end Options

end BridgeAudit
