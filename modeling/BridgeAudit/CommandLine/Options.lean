import BridgeAudit.Number.Bits
import BridgeAudit.Cycle.Event
import BridgeAudit.Settings

/-!
What can be chosen on the command line.

* `Options`: all choices, each with its usual value.
* `Parameter`: a choice that takes a value; it has a flag and, but for one, an environment
  variable.
* `Switch`: a choice between yes and no.
* `Parameter.apply`, `Switch.apply`: options with one choice changed.
-/

namespace BridgeAudit

/-! ### Options -/

/-- All that can be chosen. -/
structure Options where
  address : String := ({} : Connection).address
  token : UInt64 := ({} : Policy).token
  pageSize : Nat := ({} : Connection).pageSize
  maxPages : Nat := ({} : Connection).maxPages
  timeoutSeconds : Nat := ({} : Connection).timeoutSeconds
  overdueDays : Int := ({} : Policy).overdueDays
  /-- For how long a load that fails may be tried again. Where every reply is there at once, once is
  enough. -/
  retrySeconds : Nat := 0
  /-- The view is written as JSON. -/
  json : Bool := false
  /-- The ledger balance of the token is written, too. -/
  ledgerBalance : Bool := false
  logLevel : String := "info"
  deriving DecidableEq, Repr, Inhabited

namespace Options

/-- The connection that has been chosen. -/
def connection (o : Options) : Connection :=
  { Connection.ofAddress o.address with
    pageSize := o.pageSize
    maxPages := o.maxPages
    timeoutSeconds := o.timeoutSeconds }

/-- The policy that has been chosen. -/
def policy (o : Options) : Policy := ⟨o.token, o.overdueDays * nanosPerDay⟩

/-- The levels of log lines that a name stands for. -/
def levels : String → List Level
  | "off" => []
  | "error" => [.error]
  | "warn" => [.warn, .error]
  | "info" => [.info, .warn, .error]
  | _ => [.debug, .info, .warn, .error]

/-- A log line is to be written. -/
def shows (o : Options) (l : LogLine) : Bool := (levels o.logLevel).contains l.level

end Options

/-! ### Parameters -/

/-- A choice that takes a value. -/
inductive Parameter
  | address
  | token
  | pageSize
  | maxPages
  | timeout
  | overdueDays
  | retry
  | logLevel
  deriving DecidableEq, Repr

namespace Parameter

/-- All parameters. -/
def all : List Parameter :=
  [address, token, pageSize, maxPages, timeout, overdueDays, retry, logLevel]

/-- The flag of a parameter, without its dashes. -/
def flag : Parameter → String
  | address => "auditor-url"
  | token => "canonical-token-id"
  | pageSize => "page-size"
  | maxPages => "max-pages"
  | timeout => "request-timeout-secs"
  | overdueDays => "overdue-after-days"
  | retry => "retry-for"
  | logLevel => "log-level"

/-- The environment variable of a parameter. -/
def environmentName : Parameter → Option String
  | address => some "AUDITOR_URL"
  | token => some "CANONICAL_TOKEN_ID"
  | pageSize => some "PAGE_SIZE"
  | maxPages => some "MAX_PAGES"
  | timeout => some "REQUEST_TIMEOUT_SECS"
  | overdueDays => some "OVERDUE_AFTER_DAYS"
  | retry => none
  | logLevel => some "LOG_LEVEL"

/-- What a parameter is for. -/
def purpose : Parameter → String
  | address => "Reserve auditor base URL"
  | token => "Ledger token id whose burns are audited"
  | pageSize => "Records requested per page"
  | maxPages => "Upper bound on pages fetched per collection"
  | timeout => "Per-request timeout in seconds"
  | overdueDays => "Days after which an unaudited burn is flagged as overdue"
  | retry => "Keep retrying failed fetches for up to this many seconds. 0 disables retries"
  | logLevel => "Log level (trace, debug, info, warn, error)"

/-- The parameter of a flag. -/
def ofFlag? (name : String) : Option Parameter := all.find? fun p => p.flag = name

/-- A number without a sign, in 64 bits. -/
def readWord (value : String) : Option Nat :=
  (Digits.readWord (Bits.bound 64) value.toList).toOption

/-- Options with the value of a parameter changed. Numbers have to be decimal numerals of 64
bits, and only the number of days may be negative; any text is an address or a log level. -/
def apply (p : Parameter) (value : String) (o : Options) : Option Options :=
  match p with
  | address => some { o with address := value }
  | token => (readWord value).map fun n => { o with token := UInt64.ofNat n }
  | pageSize => (readWord value).map fun n => { o with pageSize := n }
  | maxPages => (readWord value).map fun n => { o with maxPages := n }
  | timeout => (readWord value).map fun n => { o with timeoutSeconds := n }
  | overdueDays =>
      (Digits.readSigned (Bits.bound 63) value.toList).map fun i => { o with overdueDays := i }
  | retry => (readWord value).map fun n => { o with retrySeconds := n }
  | logLevel => some { o with logLevel := value }

end Parameter

/-! ### Switches -/

/-- A choice between yes and no. -/
inductive Switch
  | json
  | ledgerBalance
  deriving DecidableEq, Repr

namespace Switch

/-- All switches. -/
def all : List Switch := [json, ledgerBalance]

/-- The flag of a switch, without its dashes. -/
def flag : Switch → String
  | json => "json"
  | ledgerBalance => "ledger-balance"

/-- What a switch is for. -/
def purpose : Switch → String
  | json => "Print the view as JSON instead of a table"
  | ledgerBalance => "Also print the canonical token's ledger balance"

/-- The switch of a flag. -/
def ofFlag? (name : String) : Option Switch := all.find? fun s => s.flag = name

/-- The switch is on. -/
def isOn (s : Switch) (o : Options) : Bool :=
  match s with
  | json => o.json
  | ledgerBalance => o.ledgerBalance

/-- Options with a switch turned on. -/
def apply (s : Switch) (o : Options) : Options :=
  match s with
  | json => { o with json := true }
  | ledgerBalance => { o with ledgerBalance := true }

end Switch

end BridgeAudit
