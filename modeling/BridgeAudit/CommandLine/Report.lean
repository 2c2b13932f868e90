import BridgeAudit.Amount
import BridgeAudit.Auditor.Client

/-!
What is written for people.

* `Report.reference`: how a record is looked up.
* `Report.row`, `Report.table`: a view as a table.
* `Report.balance`: a ledger balance in one line.
* `Failure`, `Failure.report`: why a run has failed, with the causes of each cause.
-/

namespace BridgeAudit

namespace Report

/-! ### Tables -/

/-- What a record is looked up by. -/
def reference : Record → String
  | .auditedMint r => r.deposit.txHash
  | .auditedBurn r => r.withdrawal.txHash
  | .unauditedMint r => "nonce " ++ r.nonceHex
  | .unauditedBurn r => "memo " ++ r.memoHex
  | .unauditedDeposit r => r.deposit.txHash
  | .unauditedWithdrawal r => r.txHash

/-- A text with blanks in front up to a width. -/
def rightAligned (width : Nat) (s : String) : String :=
  String.ofList (Digits.padLeft width ' ' s.toList)

/-- A text with blanks behind it up to a width. -/
def leftAligned (width : Nat) (s : String) : String :=
  s ++ String.ofList (List.replicate (width - s.length) ' ')

/-- An amount of the audited token and its name. -/
def amount (n : Nat) : String := Amount.ofToken n ++ " " ++ Amount.tokenName

/-- An entry in one row. -/
def row (now : Instant) (threshold : Int) (e : Entry) : String :=
  e.occurredAt.display ++ "  " ++ leftAligned 22 e.category.name ++ " " ++
    rightAligned 24 (Amount.ofToken e.record.amount.toNat) ++ " " ++ Amount.tokenName ++ "  " ++
    reference e.record ++ if e.isOverdue now threshold then "  OVERDUE" else ""

/-- A view as a table: a row for each entry, then the totals and the counts. -/
def table (v : View) (now : Instant) (threshold : Int) : List String :=
  v.timeline.map (row now threshold) ++
    ["", "Awaiting mint:   " ++ amount v.totals.awaitingMint,
      "Awaiting unwrap: " ++ amount v.totals.awaitingUnwrap, v.stats.summary]

/-- A ledger balance in one line. -/
def balance (b : Balance) : String :=
  "Ledger token " ++ Digits.numeral b.token.toNat ++ ": minted " ++ Amount.ofToken b.minted ++
    ", burned " ++ Amount.ofToken b.burned ++ ", supply " ++ amount b.supply

end Report

/-! ### Failures -/

/-- A failed request, and what lies behind it. -/
def AuditorError.causes (e : AuditorError) : List String :=
  match e with
  | undecodable fault => [e.message, fault.message]
  | _ => [e.message]

/-- A failed cycle, and what lies behind it. -/
def CycleError.causes (e : CycleError) : List String :=
  match e with
  | fetch _ source => e.message :: source.causes
  | _ => [e.message]

/-- Why a run has failed. -/
inductive Failure
  | connection (e : SettingError)
  | policy (e : SettingError)
  | client (e : AuditorError)
  | load (e : CycleError)
  | balance (e : AuditorError)
  deriving Repr

namespace Failure

/-- What was being done. -/
def context : Failure → String
  | connection _ => "invalid auditor configuration"
  | policy _ => "invalid reconcile configuration"
  | client _ => "failed to build auditor client"
  | load _ => "failed to load reconciled view"
  | balance _ => "failed to read ledger balance"

/-- What went wrong, and what lies behind it. -/
def causes : Failure → List String
  | connection e => [e.message]
  | policy e => [e.message]
  | client e => e.causes
  | load e => e.causes
  | balance e => e.causes

/-- A text of one or several lines, with something in front of the first line and as many blanks
in front of the others. -/
def indented (first text : String) : List String :=
  match text.splitOn "\n" with
  | [] => []
  | line :: more => (first ++ line) :: more.map (Report.rightAligned first.length "" ++ ·)

/-- What stands in front of a cause: its number, if there are several. -/
def label (number count : Nat) : String :=
  if count = 1 then "    " else Report.rightAligned 5 (Digits.numeral number) ++ ": "

/-- A failure in lines. -/
def report (f : Failure) : List String :=
  let causes := f.causes
  ["Error: " ++ f.context, "", "Caused by:"] ++
    causes.zipIdx.flatMap fun (cause, number) => indented (label number causes.length) cause

end Failure

end BridgeAudit
