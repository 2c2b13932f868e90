import BridgeAudit.Text.Digits

/-!
What can be set, and what has to hold of it.

* `Policy`: which token is audited and when a burn is overdue.
* `Connection`: where the auditor is and how its lists are paged.
* `SettingError`: what is wrong with either; `Policy.check` and `Connection.check` find it.
-/

namespace BridgeAudit

/-- What is wrong with a setting. -/
inductive SettingError
  | emptyAddress
  | unsupportedScheme (address : String)
  | zeroPageSize
  | zeroMaxPages
  | nonPositiveThreshold (days : Int)
  deriving DecidableEq, Repr

/-- What is said of a wrong setting. -/
def SettingError.message : SettingError → String
  | emptyAddress => "auditor base URL must not be empty"
  | unsupportedScheme address =>
      "auditor base URL must start with http:// or https://, got " ++ address
  | zeroPageSize => "page size must be greater than zero"
  | zeroMaxPages => "max pages must be greater than zero"
  | nonPositiveThreshold days =>
      "overdue threshold must be positive, got " ++ String.ofList (Digits.writeInt days) ++ " days"

/-! ### The policy of an audit -/

/-- The number of nanoseconds in a day. -/
def nanosPerDay : Int := 86400000000000

/-- Which token is audited, and for how many nanoseconds a burn may wait for its withdrawal. -/
structure Policy where
  token : UInt64 := 1
  overdueAfter : Int := 7 * nanosPerDay
  deriving DecidableEq, Repr, Inhabited

namespace Policy

/-- The whole days of the threshold, a part of a day cut off. -/
def overdueDays (p : Policy) : Int := p.overdueAfter.tdiv nanosPerDay

/-- The threshold has to be positive. -/
def check (p : Policy) : Except SettingError Unit :=
  if p.overdueAfter ≤ 0 then .error (.nonPositiveThreshold p.overdueDays) else .ok ()

end Policy

/-! ### The connection to the auditor -/

/-- Where the auditor is and how its lists are paged. -/
structure Connection where
  address : String := "http://localhost:7774"
  pageSize : Nat := 50
  maxPages : Nat := 100
  /-- How long a reply may take. -/
  timeoutSeconds : Nat := 30
  deriving DecidableEq, Repr, Inhabited

namespace Connection

/-- A text without the slashes at its end. -/
def trimSlashes (s : String) : String :=
  String.ofList ((s.toList.reverse.dropWhile (· = '/')).reverse)

/-- The connection to an address, slashes at its end dropped, all else as usual. -/
def ofAddress (address : String) : Connection := { address := trimSlashes address }

/-- A text starts with another one. -/
def startsWith (start s : String) : Bool := start.toList.isPrefixOf s.toList

/-- The address is one of a web server. -/
def hasScheme (address : String) : Bool :=
  startsWith "http://" address || startsWith "https://" address

/-- The address has to be one of a web server, and neither size may be zero. The first that
does not hold is reported. -/
def check (c : Connection) : Except SettingError Unit :=
  if c.address = "" then .error .emptyAddress
  else if !hasScheme c.address then .error (.unsupportedScheme c.address)
  else if c.pageSize = 0 then .error .zeroPageSize
  else if c.maxPages = 0 then .error .zeroMaxPages
  else .ok ()

end Connection

end BridgeAudit
