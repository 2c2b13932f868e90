import BridgeAudit.Json.Basic
import BridgeAudit.Number.Shortest
import BridgeAudit.Text.Digits

/-!
The text of a JSON value.

* `Json.compact`: on one line, without blanks.
* `Json.pretty`: one item or member a line, indented by two blanks a level; an empty
  array or object stays closed.

A text is put between double quotes; the quote, the backslash and the characters
below U+0020 are escaped, all else is written as it is. So neither form of a string
ever breaks a line.
-/

namespace BridgeAudit

namespace Json

/-- A digit of the hexadecimal system, a small letter above nine. -/
def hexDigit (n : Nat) : Char := Nat.digitChar (n % 16)

/-- One character inside a string. -/
def escape (c : Char) : List Char :=
  if c = '"' then ['\\', '"']
  else if c = '\\' then ['\\', '\\']
  else if c = '\x08' then ['\\', 'b']
  else if c = '\t' then ['\\', 't']
  else if c = '\n' then ['\\', 'n']
  else if c = '\x0c' then ['\\', 'f']
  else if c = '\r' then ['\\', 'r']
  else if c.toNat < 0x20 then ['\\', 'u', '0', '0', hexDigit (c.toNat / 16), hexDigit c.toNat]
  else [c]

/-- A string between its quotes. -/
def quote (s : String) : List Char := '"' :: s.toList.flatMap escape ++ ['"']

/-- A number. -/
def Number.chars : Number → List Char
  | .integer i => Digits.writeInt i
  | .float x => Shortest.write x

/-- A value that holds no other, and nothing for arrays and objects. -/
def scalarChars : Json → List Char
  | .null => "null".toList
  | .boolean true => "true".toList
  | .boolean false => "false".toList
  | .number n => n.chars
  | .string s => quote s
  | .array _ => []
  | .object _ => []

mutual

/-- A value on one line, as characters. -/
def chars : Json → List Char
  | .array [] => ['[', ']']
  | .array (v :: vs) => '[' :: chars v ++ charsItems vs
  | .object [] => ['{', '}']
  | .object ((k, v) :: ms) => '{' :: quote k ++ ':' :: chars v ++ charsMembers ms
  | v => scalarChars v

/-- The items behind the first one, up to the end of the array. -/
def charsItems : List Json → List Char
  | [] => [']']
  | v :: vs => ',' :: chars v ++ charsItems vs

/-- The members behind the first one, up to the end of the object. -/
def charsMembers : List (String × Json) → List Char
  | [] => ['}']
  | (k, v) :: ms => ',' :: quote k ++ ':' :: chars v ++ charsMembers ms

end

/-- A new line, indented to the given level. -/
def newLine (level : Nat) : List Char := '\n' :: List.replicate (2 * level) ' '

mutual

/-- A value over several lines, as characters; it starts on a line of the given level. -/
def prettyChars (level : Nat) : Json → List Char
  | .array [] => ['[', ']']
  | .array (v :: vs) =>
      '[' :: newLine (level + 1) ++ prettyChars (level + 1) v ++ prettyItems level vs
  | .object [] => ['{', '}']
  | .object ((k, v) :: ms) =>
      '{' :: newLine (level + 1) ++ quote k ++ ':' :: ' ' :: prettyChars (level + 1) v ++
        prettyMembers level ms
  | v => scalarChars v

/-- The items behind the first one, one a line, up to the end of the array. -/
def prettyItems (level : Nat) : List Json → List Char
  | [] => newLine level ++ [']']
  | v :: vs => ',' :: newLine (level + 1) ++ prettyChars (level + 1) v ++ prettyItems level vs

/-- The members behind the first one, one a line, up to the end of the object. -/
def prettyMembers (level : Nat) : List (String × Json) → List Char
  | [] => newLine level ++ ['}']
  | (k, v) :: ms =>
      ',' :: newLine (level + 1) ++ quote k ++ ':' :: ' ' :: prettyChars (level + 1) v ++
        prettyMembers level ms

end

/-- A value on one line. -/
def compact (v : Json) : String := String.ofList (chars v)

/-- A value over several lines. -/
def pretty (v : Json) : String := String.ofList (prettyChars 0 v)

end Json

end BridgeAudit
