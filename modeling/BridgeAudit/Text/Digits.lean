/-!
Decimal numerals.

* `Digits.write`, `Digits.numeral`, `Digits.padded`: the numeral of a number, as
  characters and as text, and the same with zeros in front up to a width.
* `Digits.value`: the number a row of digits stands for.
* `Digits.readWord`: a numeral with an optional plus sign, bounded above, with
  the three ways in which a text fails to be one.
-/

namespace BridgeAudit

namespace Digits

/-- The decimal numeral of a number, most significant digit first. -/
def write (n : Nat) : List Char := Nat.toDigits 10 n

/-- The decimal numeral of a number, as text. -/
def numeral (n : Nat) : String := String.ofList (write n)

/-- A text with as many copies of a character in front as the given width asks for. -/
def padLeft (width : Nat) (fill : Char) (cs : List Char) : List Char :=
  List.replicate (width - cs.length) fill ++ cs

/-- The decimal numeral of a number with zeros in front, up to the given width. -/
def padded (width n : Nat) : List Char := padLeft width '0' (write n)

/-- The number that a row of decimal digits stands for. -/
def value (cs : List Char) : Nat := Nat.ofDigitChars 10 cs 0

/-- The decimal numeral of an integer, a minus sign in front of the negative ones. -/
def writeInt : Int → List Char
  | .ofNat n => write n
  | .negSucc n => '-' :: write (n + 1)

/-- Why a text is not a numeral below the bound. -/
inductive Fault
  /-- There is nothing to read. -/
  | empty
  /-- A character is not a decimal digit. -/
  | notADigit
  /-- The number reaches the bound. -/
  | tooLarge
  deriving DecidableEq, Repr

/-- What is said of a text that is not a numeral. -/
def Fault.message : Fault → String
  | .empty => "cannot parse integer from empty string"
  | .notADigit => "invalid digit found in string"
  | .tooLarge => "number too large to fit in target type"

/-- Reads digits from the left: the first that is none, or the first at which the
number reaches the bound, decides the fault. -/
def readFrom (bound acc : Nat) : List Char → Except Fault Nat
  | [] => .ok acc
  | c :: cs =>
      if c.isDigit then
        let next := acc * 10 + (c.toNat - '0'.toNat)
        if next < bound then readFrom bound next cs else .error .tooLarge
      else .error .notADigit

/-- A natural number below the bound: an optional plus sign, then one or more digits. -/
def readWord (bound : Nat) : List Char → Except Fault Nat
  | [] => .error .empty
  | ['+'] => .error .notADigit
  | '+' :: cs => readFrom bound 0 cs
  | cs => readFrom bound 0 cs

/-- An integer with an optional sign, one or more digits, at least `-bound` and
below `bound`. -/
def readSigned (bound : Nat) : List Char → Option Int
  | '-' :: c :: cs => (readFrom (bound + 1) 0 (c :: cs)).toOption.map fun n => -(n : Int)
  | cs => (readWord bound cs).toOption.map Int.ofNat

end Digits

end BridgeAudit
