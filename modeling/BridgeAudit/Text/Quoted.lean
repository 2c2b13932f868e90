import BridgeAudit.Text.Visible

/-!
Quoted text, as it appears inside a message.

A text is put between double quotes. The quote and the backslash get a
backslash, line feed, carriage return, tab and the null character have a letter,
and every other character that does not show up by itself is written as its code
point in hexadecimal. So a quoted text never breaks a line.

* `Quoted.escape`: one character.
* `Quoted.write`: a whole text with its quotes.
-/

namespace BridgeAudit

namespace Quoted

/-- A code point in hexadecimal, in small letters and as short as it goes. -/
def codePoint (c : Char) : List Char :=
  ['\\', 'u', '{'] ++ Nat.toDigits 16 c.toNat ++ ['}']

/-- One character inside a quoted text. -/
def escape (c : Char) : List Char :=
  if c = '"' then ['\\', '"']
  else if c = '\\' then ['\\', '\\']
  else if c = '\n' then ['\\', 'n']
  else if c = '\r' then ['\\', 'r']
  else if c = '\t' then ['\\', 't']
  else if c = '\x00' then ['\\', '0']
  else if Visible.is c then [c]
  else codePoint c

/-- A text between double quotes, each character escaped where it has to be. -/
def chars (cs : List Char) : List Char := '"' :: cs.flatMap escape ++ ['"']

/-- A text between double quotes. -/
def write (s : String) : String := String.ofList (chars s.toList)

end Quoted

end BridgeAudit
