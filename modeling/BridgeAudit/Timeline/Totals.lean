import BridgeAudit.Record.Basic
import BridgeAudit.Timeline.Collections

/-!
What is still in flight.

* `Totals.awaitingMint`: the sum of the deposits without a mint.
* `Totals.awaitingUnwrap`: the sum of the burns of one token without a withdrawal.

The sums run over every record that decodes, whether or not it can be dated.
-/

namespace BridgeAudit

/-- The two sums, in base units. -/
structure Totals where
  awaitingMint : Nat
  awaitingUnwrap : Nat
  deriving DecidableEq, Repr

/-- The amount of a deposit without a mint; nothing for other records. -/
def Record.awaitedMint : Record → Nat
  | .unauditedDeposit r => r.deposit.amount.toNat
  | _ => 0

/-- The amount of a burn of the token without a withdrawal; nothing for other records. -/
def Record.awaitedUnwrap (token : UInt64) : Record → Nat
  | .unauditedBurn r => if r.burn.tokenId = token then r.burn.amount.toNat else 0
  | _ => 0

/-- The sum of the deposits without a mint. -/
def Totals.mintSum (records : List Record) : Nat := (records.map Record.awaitedMint).foldr (· + ·) 0

/-- The sum of the burns of the token without a withdrawal. -/
def Totals.unwrapSum (token : UInt64) (records : List Record) : Nat :=
  (records.map (Record.awaitedUnwrap token)).foldr (· + ·) 0

/-- The totals of six collections: deposits count where deposits are served, and burns
where burns are. -/
def Totals.of (token : UInt64) (records : Collections Record) : Totals where
  awaitingMint := mintSum records.unauditedDeposits
  awaitingUnwrap := unwrapSum token records.unauditedBurns

end BridgeAudit
