import BridgeAudit.Text.Digits

/-!
Amounts as people read them.

* `Amount.write`: an amount counted in units of `10 ^ -decimals`, with a point in front of the
  last `decimals` digits.
-/

namespace BridgeAudit

namespace Amount

/-- The number of decimals of the audited token. -/
def tokenDecimals : Nat := 6

/-- The name of the audited token. -/
def tokenName : String := "eUSD"

/-- An amount in base units, written with the given number of decimals. -/
def chars (amount decimals : Nat) : List Char :=
  if decimals = 0 then Digits.write amount
  else
    let scale := Nat.pow 10 decimals
    Digits.write (amount / scale) ++ '.' :: Digits.padded decimals (amount % scale)

/-- An amount in base units, written with the given number of decimals. -/
def write (amount decimals : Nat) : String := String.ofList (chars amount decimals)

/-- An amount of the audited token. -/
def ofToken (amount : Nat) : String := write amount tokenDecimals

end Amount

end BridgeAudit
