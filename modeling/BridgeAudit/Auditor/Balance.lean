import BridgeAudit.Record.Layout
import BridgeAudit.Auditor.Error

/-!
What the ledger says about a token.

* `Balance`: how much of a token has been minted and burned.
* `Balance.supply`: what is left of it.
* `Balance.decode`: a balance from the auditor's reply, in which both amounts are decimal
  numerals below `2 ^ 128`.
-/

namespace BridgeAudit

/-- How much of a token has been minted and burned, in base units. -/
structure Balance where
  token : UInt64
  minted : Nat
  burned : Nat
  deriving DecidableEq, Repr

/-- The two amounts as the auditor writes them. -/
structure BalanceText where
  minted : String
  burned : String
  deriving DecidableEq, Repr

/-- The fields of the auditor's reply. -/
def BalanceText.layout : Layout BalanceText where
  structName := "LedgerBalanceResponse"
  table := .required "mint_balance" .text <| .required "burn_balance" .text .nil
  build := fun (minted, burned, ()) => ⟨minted, burned⟩
  parts b := (b.minted, b.burned, ())

namespace Balance

/-- Where balances are asked for. -/
def path : String := "/ledger_balance"

/-- Everything minted that has not been burned. -/
def supply (b : Balance) : Nat := b.minted - b.burned

/-- A balance as JSON. -/
def toJson (b : Balance) : Json :=
  .object [("token_id", .ofNat b.token.toNat), ("mint_balance", .ofNat b.minted),
    ("burn_balance", .ofNat b.burned)]

/-- The first number that is too large for an amount. -/
def amountLimit : Nat := Bits.bound 128

/-- An amount from its numeral. -/
def amount (field text : String) : Except AuditorError Nat :=
  match Digits.readWord amountLimit text.toList with
  | .ok n => .ok n
  | .error fault =>
      .error (.unexpectedShape path
        (field ++ " " ++ Quoted.write text ++ " is not an integer: " ++ fault.message))

/-- The balance of a token from the auditor's reply. -/
def decode (token : UInt64) (v : Json) : Except AuditorError Balance :=
  match BalanceText.layout.read v with
  | .error fault => .error (.undecodable fault)
  | .ok text => do
      let minted ← amount "mint_balance" text.minted
      let burned ← amount "burn_balance" text.burned
      pure ⟨token, minted, burned⟩

end Balance

end BridgeAudit
