import BridgeAudit.Json.Basic
import BridgeAudit.Text.Key

/-!
Values with all keys in snake case.

* `Json.snakeKeys`: every key of every object inside a value is respelled. Where two
  keys of one object get the same spelling, the later one in the order of the keys
  as they were stays.
-/

namespace BridgeAudit

namespace Json

mutual

/-- A value with the keys of all its objects in snake case. -/
def snakeKeys : Json → Json
  | .array items => .array (snakeKeysItems items)
  | .object members => .object (Members.ofList (snakeKeysMembers members))
  | v => v

/-- `snakeKeys` for each item of an array. -/
def snakeKeysItems : List Json → List Json
  | [] => []
  | v :: vs => snakeKeys v :: snakeKeysItems vs

/-- The members of an object, each key in snake case and each value respelled inside. -/
def snakeKeysMembers : List (String × Json) → List (String × Json)
  | [] => []
  | (k, v) :: ms => (Key.snake k, snakeKeys v) :: snakeKeysMembers ms

end

end Json

end BridgeAudit
