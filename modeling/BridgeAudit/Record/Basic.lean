import BridgeAudit.Record.Category
import BridgeAudit.Record.Shapes
import BridgeAudit.Json.Keys

/-!
Records.

* `Record`: a record of one of the six shapes.
* `Record.amount`, `Record.tokenId`, `Record.dateField`: what is shown of a record, whatever its
  shape; of an audited pair it is the ledger side.
* `Record.parse`: a record from a value in either spelling of the keys.
* `Record.toJson`: a record as an object that starts with its shape.
-/

namespace BridgeAudit

/-- A record of one of the six shapes. -/
inductive Record
  | auditedMint (r : AuditedMint)
  | auditedBurn (r : AuditedBurn)
  | unauditedMint (r : Mint)
  | unauditedBurn (r : UnauditedBurn)
  | unauditedDeposit (r : UnauditedDeposit)
  | unauditedWithdrawal (r : Withdrawal)
  deriving DecidableEq, Repr

namespace Record

/-- The shape of a record. -/
def category : Record → Category
  | auditedMint _ => .auditedMint
  | auditedBurn _ => .auditedBurn
  | unauditedMint _ => .unauditedMint
  | unauditedBurn _ => .unauditedBurn
  | unauditedDeposit _ => .unauditedDeposit
  | unauditedWithdrawal _ => .unauditedWithdrawal

/-- The amount of a record in base units of the token. -/
def amount : Record → UInt64
  | auditedMint r => r.mint.amount
  | auditedBurn r => r.burn.amount
  | unauditedMint r => r.amount
  | unauditedBurn r => r.burn.amount
  | unauditedDeposit r => r.deposit.amount
  | unauditedWithdrawal r => r.amount

/-- The ledger token of a record that has a ledger side. -/
def tokenId : Record → Option UInt64
  | auditedMint r => some r.mint.tokenId
  | auditedBurn r => some r.burn.tokenId
  | unauditedMint r => some r.tokenId
  | unauditedBurn r => some r.burn.tokenId
  | unauditedDeposit _ => none
  | unauditedWithdrawal _ => none

/-- The field that a record is dated by, and what it says. -/
def dateField : Record → String × Option String
  | auditedMint r => ("mint.block_timestamp", r.mint.blockTimestamp)
  | auditedBurn r => ("burn.block_timestamp", r.burn.blockTimestamp)
  | unauditedMint r => ("block_timestamp", r.blockTimestamp)
  | unauditedBurn r => ("burn.block_timestamp", r.burn.blockTimestamp)
  | unauditedDeposit r => ("deposit.execution_date", r.deposit.executionDate)
  | unauditedWithdrawal r => ("execution_date", r.executionDate)

/-- A burn without a withdrawal, of another token than the given one. -/
def isForeignBurn (token : UInt64) : Record → Bool
  | unauditedBurn r => r.burn.tokenId ≠ token
  | _ => false

/-- The members of the object of a record, the shape apart. -/
def members : Record → List (String × Json)
  | auditedMint r => AuditedMint.layout.members r
  | auditedBurn r => AuditedBurn.layout.members r
  | unauditedMint r => Mint.layout.members r
  | unauditedBurn r => UnauditedBurn.layout.members r
  | unauditedDeposit r => UnauditedDeposit.layout.members r
  | unauditedWithdrawal r => Withdrawal.layout.members r

/-- A record as JSON: an object that starts with the shape. -/
def toJson (r : Record) : Json :=
  .object (("category", .string r.category.name) :: r.members)

/-- A record of the given shape from a value whose keys are in snake case. -/
def decode : Category → Json → Except Fault Record
  | .auditedMint, v => (AuditedMint.layout.read v).map auditedMint
  | .auditedBurn, v => (AuditedBurn.layout.read v).map auditedBurn
  | .unauditedMint, v => (Mint.layout.read v).map unauditedMint
  | .unauditedBurn, v => (UnauditedBurn.layout.read v).map unauditedBurn
  | .unauditedDeposit, v => (UnauditedDeposit.layout.read v).map unauditedDeposit
  | .unauditedWithdrawal, v => (Withdrawal.layout.read v).map unauditedWithdrawal

end Record

/-- Why a record has no usable date. -/
inductive DateError
  | missing (field : String)
  | unparseable (field value : String)
  deriving DecidableEq, Repr

/-- What is said of a record without a usable date. -/
def DateError.message : DateError → String
  | missing field => "timestamp field " ++ field ++ " is missing"
  | unparseable field value =>
      "timestamp field " ++ field ++ " has unparseable value " ++ Quoted.write value

/-- Why a raw record is left out. -/
inductive RecordError
  /-- It has none of the six shapes; the value is shown with its keys in snake case. -/
  | unclassifiable (record : Json)
  /-- It has a shape but does not decode. -/
  | malformed (category : Category) (fault : Fault)
  /-- It decodes but cannot be dated. -/
  | undated (error : DateError)
  deriving Repr

/-- What is said of a record that is left out. -/
def RecordError.message : RecordError → String
  | unclassifiable record => "record matches no known shape: " ++ record.compact
  | malformed category fault =>
      "record classified as " ++ category.name ++ " but could not be parsed: " ++ fault.message
  | undated error => error.message

/-- A record from a raw value. -/
def Record.parse (raw : Json) : Except RecordError Record :=
  let v := raw.snakeKeys
  match classify? v with
  | none => .error (.unclassifiable v)
  | some category =>
      match Record.decode category v with
      | .ok r => .ok r
      | .error fault => .error (.malformed category fault)

end BridgeAudit
