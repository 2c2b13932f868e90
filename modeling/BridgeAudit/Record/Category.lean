import BridgeAudit.Json.Basic
import BridgeAudit.Text.Key

/-!
The six shapes of a record.

Records come without a tag; which fields are there tells their shapes apart. An
audited record also has a mint or a burn in it, so the linkage is looked for first.

* `Category`: the shapes, in the order in which they are listed.
* `classify?`: the shape of a value, from the keys of its object.
-/

namespace BridgeAudit

/-- The shape of a record. -/
inductive Category
  | auditedMint
  | auditedBurn
  | unauditedMint
  | unauditedBurn
  | unauditedDeposit
  | unauditedWithdrawal
  deriving DecidableEq, Repr, Inhabited

namespace Category

/-- All shapes in their order. -/
def all : List Category :=
  [auditedMint, auditedBurn, unauditedMint, unauditedBurn, unauditedDeposit, unauditedWithdrawal]

/-- The name of a shape. -/
def name : Category → String
  | auditedMint => "audited_mint"
  | auditedBurn => "audited_burn"
  | unauditedMint => "unaudited_mint"
  | unauditedBurn => "unaudited_burn"
  | unauditedDeposit => "unaudited_deposit"
  | unauditedWithdrawal => "unaudited_withdrawal"

/-- The two shapes that link both sides. -/
def isAudited : Category → Bool
  | auditedMint | auditedBurn => true
  | _ => false

/-- Every shape is listed. -/
theorem mem_all (c : Category) : c ∈ all := by cases c <;> decide

end Category

/-- The members of an object, and none for any other value. -/
def Json.members : Json → List (String × Json)
  | .object ms => ms
  | _ => []

/-- A field is there in one of the two spellings of its key. -/
def hasField (ms : List (String × Json)) (name : String) : Bool :=
  Members.has ms name || Members.has ms (Key.camel name)

/-- The shape that the members of an object make up. -/
def classifyMembers (ms : List (String × Json)) : Option Category :=
  if hasField ms "audited" && hasField ms "mint" then some .auditedMint
  else if hasField ms "audited" && hasField ms "burn" then some .auditedBurn
  else if hasField ms "mint_config_id" then some .unauditedMint
  else if hasField ms "burn" then some .unauditedBurn
  else if hasField ms "deposit" then some .unauditedDeposit
  else if hasField ms "execution_date" then some .unauditedWithdrawal
  else none

/-- The shape of a value, if it has one of the six. -/
def classify? (v : Json) : Option Category := classifyMembers v.members

end BridgeAudit
