import BridgeAudit.Number.Binary

/-!
JSON values.

* `Json`: a value; an object keeps its members in a list.
* `Members.insert`, `Members.ofList`: members in the order of their keys, a later value
  taking the place of an earlier one under the same key.
* `Members.get?`: the value under a key.
* `Json.Sorted`: every object inside a value lists its keys in strictly increasing
  order, as every value that is read does.
-/

namespace BridgeAudit

/-- A number: an integer that fits 64 bits, with or without a sign, or else a binary
fraction. -/
inductive Json.Number
  | integer (i : Int)
  | float (x : Binary)
  deriving DecidableEq, Repr, Inhabited

/-- A JSON value. -/
inductive Json
  | null
  | boolean (b : Bool)
  | number (n : Json.Number)
  | string (s : String)
  | array (items : List Json)
  | object (members : List (String × Json))
  deriving Repr, Inhabited

/-! ### Members of an object -/

namespace Members

variable {α : Type}

/-- Puts a value under a key, in the order of the keys. -/
def insert (key : String) (value : α) : List (String × α) → List (String × α)
  | [] => [(key, value)]
  | m :: ms =>
      if key < m.1 then (key, value) :: m :: ms
      else if key = m.1 then (key, value) :: ms
      else m :: insert key value ms

/-- The members of a list in the order of their keys; of several under one key the
last one stays. -/
def ofList (ms : List (String × α)) : List (String × α) :=
  ms.foldl (fun acc m => insert m.1 m.2 acc) []

/-- The value under a key. -/
def get? (ms : List (String × α)) (key : String) : Option α :=
  (ms.find? fun m => m.1 = key).map (·.2)

/-- There is a value under the key. -/
def has (ms : List (String × α)) (key : String) : Bool := ms.any fun m => m.1 = key

/-- What has just been put under a key is what is found there. -/
theorem get?_insert_self (key : String) (value : α) (ms : List (String × α)) :
    get? (insert key value ms) key = some value := by
  induction ms with
  | nil => simp [insert, get?]
  | cons m ms ih =>
      rw [insert]
      split
      · simp [get?]
      · split
        · simp [get?]
        · next h =>
            have h' : m.1 ≠ key := Ne.symm h
            simpa [get?, h'] using ih

/-- Putting a value under a key changes nothing elsewhere. -/
theorem get?_insert_of_ne {key other : String} (h : key ≠ other) (value : α)
    (ms : List (String × α)) : get? (insert key value ms) other = get? ms other := by
  induction ms with
  | nil => simp [insert, get?, h]
  | cons m ms ih =>
      rw [insert]
      split
      · simp [get?, h]
      · split
        · next e =>
            have h' : m.1 ≠ other := e ▸ h
            simp [get?, h, h']
        · by_cases hm : m.1 = other
          · simp [get?, hm]
          · simpa [get?, hm] using ih

end Members

namespace Json

/-- A whole number. -/
abbrev ofNat (n : Nat) : Json := .number (.integer n)

/-- An integer. -/
abbrev ofInt (i : Int) : Json := .number (.integer i)

mutual

/-- Every object inside the value lists its keys in strictly increasing order. -/
def Sorted : Json → Prop
  | .array items => SortedItems items
  | .object members => (members.map (·.1)).Pairwise (· < ·) ∧ SortedMembers members
  | _ => True

/-- `Sorted` for each item of an array. -/
def SortedItems : List Json → Prop
  | [] => True
  | v :: vs => Sorted v ∧ SortedItems vs

/-- `Sorted` for the value of each member of an object. -/
def SortedMembers : List (String × Json) → Prop
  | [] => True
  | (_, v) :: ms => Sorted v ∧ SortedMembers ms

end

end Json

end BridgeAudit
