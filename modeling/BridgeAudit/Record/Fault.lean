import BridgeAudit.Json.Printer
import BridgeAudit.Text.Quoted

/-!
What can be wrong with a value that is to be decoded.

* `Fault`: the kinds of fault, each with what it takes to name it.
* `Fault.message`: the wording.
-/

namespace BridgeAudit

/-- What is wrong with a value that is to be decoded. -/
inductive Fault
  /-- The value is of another kind than the wanted one. -/
  | wrongKind (found : Json) (wanted : String)
  /-- The value is an integer outside the range of the wanted kind. -/
  | outOfRange (found : Int) (wanted : String)
  /-- A field without a default is not there. -/
  | missing (field : String)
  /-- A field is there under both of its names. -/
  | duplicate (field : String)
  /-- An array ends in front of the field with the given index. -/
  | tooShort (index : Nat) (structName : String) (fields : Nat)
  /-- An array goes on behind the last field. -/
  | tooLong (length : Nat)
  deriving Repr

namespace Fault

/-- Text between grave accents. -/
def marked (s : String) : String := "`" ++ s ++ "`"

/-- A value as it is named in a fault: its kind, and for a value that holds no other also
the value. -/
def describe : Json → String
  | .null => "null"
  | .boolean b => "boolean " ++ marked (if b then "true" else "false")
  | .number (.integer i) => "integer " ++ marked (String.ofList (Digits.writeInt i))
  | .number (.float x) => "floating point " ++ marked (String.ofList (Shortest.write x))
  | .string s => "string " ++ Quoted.write s
  | .array _ => "sequence"
  | .object _ => "map"

/-- A number of fields. -/
def elements (n : Nat) : String :=
  if n = 1 then "1 element" else Digits.numeral n ++ " elements"

/-- The wording of a fault. -/
def message : Fault → String
  | wrongKind found wanted => "invalid type: " ++ describe found ++ ", expected " ++ wanted
  | outOfRange found wanted =>
      "invalid value: " ++ describe (.ofInt found) ++ ", expected " ++ wanted
  | missing field => "missing field " ++ marked field
  | duplicate field => "duplicate field " ++ marked field
  | tooShort index structName fields =>
      "invalid length " ++ Digits.numeral index ++ ", expected struct " ++
        structName ++ " with " ++ elements fields
  | tooLong length =>
      "invalid length " ++ Digits.numeral length ++
        ", expected fewer elements in array"

end Fault

end BridgeAudit
