import BridgeAudit.Json.Basic

/-!
Reading a JSON text.

The grammar is the strict one: no blanks but space, tab, line feed and carriage
return, no comments, nothing behind the value, no control character and no lone
half of a surrogate pair in a string, at most 127 arrays and objects inside one
another. Of several members under one key the last one stays.

* `Number.read`: digits are gathered as long as the number they form fits 64 bits;
  those behind only move the decimal point. Without point and exponent a number that
  fits stays an integer; all others are the gathered number scaled by a power of ten.
* `Json.parse`: a whole text.
-/

namespace BridgeAudit

namespace Json

/-! ### Numbers -/

/-- The first number that does not fit 64 bits. -/
def wordLimit : Nat := Bits.bound 64

/-- The first number too large for a signed integer of 64 bits. -/
def signedLimit : Nat := Bits.bound 63

/-- The value of a decimal digit. -/
def digitValue (c : Char) : Nat := c.toNat - '0'.toNat

/-- Digits in front of a point: the number gathered so far, and how many digits have been
passed over since it was full. -/
def gather (significand passed : Nat) : List Char → Nat × Nat
  | [] => (significand, passed)
  | c :: cs =>
      if passed = 0 ∧ significand * 10 + digitValue c < wordLimit then
        gather (significand * 10 + digitValue c) 0 cs
      else gather significand (passed + 1) cs

/-- Digits behind a point: the number gathered so far, and how many of them it has taken
in; what follows the first that does not fit is dropped. -/
def gatherFraction (significand taken : Nat) : List Char → Nat × Nat
  | [] => (significand, taken)
  | c :: cs =>
      if significand * 10 + digitValue c < wordLimit then
        gatherFraction (significand * 10 + digitValue c) (taken + 1) cs
      else (significand, taken)

/-- The digits at the front of a text, and what follows. -/
def digitRun (cs : List Char) : List Char × List Char :=
  (cs.takeWhile Char.isDigit, cs.dropWhile Char.isDigit)

/-- An optional fraction: a point and at least one digit. -/
def readFraction : List Char → Option (Option (List Char) × List Char)
  | '.' :: cs =>
      match digitRun cs with
      | ([], _) => none
      | (ds, rest) => some (some ds, rest)
  | cs => some (none, cs)

/-- At least one digit, as an exponent with the given sign. -/
def readPower (negative : Bool) (cs : List Char) : Option (Option Int × List Char) :=
  match digitRun cs with
  | ([], _) => none
  | (ds, rest) =>
      let n : Nat := ds.foldl (fun acc c => acc * 10 + digitValue c) 0
      some (some (if negative then -(n : Int) else n), rest)

/-- An optional exponent: a letter, an optional sign and at least one digit. -/
def readExponent : List Char → Option (Option Int × List Char)
  | c :: cs =>
      if c = 'e' ∨ c = 'E' then
        match cs with
        | '+' :: cs => readPower false cs
        | '-' :: cs => readPower true cs
        | cs => readPower false cs
      else some (none, c :: cs)
  | [] => some (none, [])

/-- The number with the given sign, whole digits, fraction and exponent. -/
def Number.ofParts (negative : Bool) (whole : List Char) (fraction : Option (List Char))
    (exponent : Option Int) : Option Number :=
  let (significand, passed) := gather 0 0 whole
  let (digits, taken) := gatherFraction significand 0 (fraction.getD [])
  let scaled : Option Number :=
    (Binary.scaled digits ((passed : Int) - taken + exponent.getD 0)).map
      fun units => .float ⟨negative, units⟩
  if fraction.isSome ∨ exponent.isSome ∨ passed ≠ 0 then scaled
  else if !negative then some (.integer significand)
  else if significand ≠ 0 ∧ significand ≤ signedLimit then some (.integer (-(significand : Int)))
  else scaled

/-- The digits in front of the point: a single zero, or a row that starts with another digit. -/
def readWhole (cs : List Char) : Option (List Char × List Char) :=
  match digitRun cs with
  | ([], _) => none
  | ('0' :: _ :: _, _) => none
  | r => some r

/-- A number at the front of a text, and what follows. -/
def Number.read (cs : List Char) : Option (Number × List Char) := do
  let (negative, cs) := match cs with
    | '-' :: cs => (true, cs)
    | cs => (false, cs)
  let (whole, cs) ← readWhole cs
  let (fraction, cs) ← readFraction cs
  let (exponent, cs) ← readExponent cs
  let n ← Number.ofParts negative whole fraction exponent
  pure (n, cs)

/-! ### Strings -/

/-- The value of a hexadecimal digit. -/
def hexValue (c : Char) : Option Nat :=
  if c.isDigit then some (c.toNat - '0'.toNat)
  else if 'a' ≤ c ∧ c ≤ 'f' then some (c.toNat - 'a'.toNat + 10)
  else if 'A' ≤ c ∧ c ≤ 'F' then some (c.toNat - 'A'.toNat + 10)
  else none

/-- The value of four hexadecimal digits. -/
def hexWord (a b c d : Char) : Option Nat := do
  let a ← hexValue a
  let b ← hexValue b
  let c ← hexValue c
  let d ← hexValue d
  pure (((a * 16 + b) * 16 + c) * 16 + d)

/-- The character behind a backslash that stands for another one. -/
def unescape : Char → Option Char
  | '"' => some '"'
  | '\\' => some '\\'
  | '/' => some '/'
  | 'b' => some '\x08'
  | 'f' => some '\x0c'
  | 'n' => some '\n'
  | 'r' => some '\r'
  | 't' => some '\t'
  | _ => none

/-- The first half of a surrogate pair. -/
def isHighHalf (n : Nat) : Bool := 0xd800 ≤ n && n < 0xdc00

/-- The second half of a surrogate pair. -/
def isLowHalf (n : Nat) : Bool := 0xdc00 ≤ n && n < 0xe000

/-- The rest of a string behind its opening quote, and what follows the closing one. -/
def readString : List Char → Option (List Char × List Char)
  | '"' :: cs => some ([], cs)
  | '\\' :: 'u' :: a :: b :: c :: d :: '\\' :: 'u' :: e :: f :: g :: h :: cs => do
      let high ← hexWord a b c d
      if isLowHalf high then none
      else if isHighHalf high then
        let low ← hexWord e f g h
        if isLowHalf low then
          let point := 0x10000 + (high - 0xd800) * 0x400 + (low - 0xdc00)
          let (s, rest) ← readString cs
          pure (Char.ofNat point :: s, rest)
        else none
      else
        let (s, rest) ← readString ('\\' :: 'u' :: e :: f :: g :: h :: cs)
        pure (Char.ofNat high :: s, rest)
  | '\\' :: 'u' :: a :: b :: c :: d :: cs => do
      let n ← hexWord a b c d
      if isHighHalf n || isLowHalf n then none
      else
        let (s, rest) ← readString cs
        pure (Char.ofNat n :: s, rest)
  | '\\' :: c :: cs => do
      let c ← unescape c
      let (s, rest) ← readString cs
      pure (c :: s, rest)
  | c :: cs =>
      if c.toNat < 0x20 ∨ c = '\\' then none
      else do
        let (s, rest) ← readString cs
        pure (c :: s, rest)
  | [] => none

/-! ### Values -/

/-- The blanks between the parts of a text. -/
def isBlank (c : Char) : Bool := c = ' ' || c = '\t' || c = '\n' || c = '\r'

/-- A text without the blanks at its front. -/
def skipBlanks (cs : List Char) : List Char := cs.dropWhile isBlank

/-- A word at the front of a text; what follows it. -/
def dropWord : List Char → List Char → Option (List Char)
  | [], cs => some cs
  | w :: ws, c :: cs => if w = c then dropWord ws cs else none
  | _ :: _, [] => none

/-- How many arrays and objects may be open at once. -/
def deepest : Nat := 127

mutual

/-- A value at the front of a text, and what follows. `fuel` bounds the number of parts
still to be read and `room` the number of arrays and objects that may still be opened. -/
def readValue (fuel room : Nat) (cs : List Char) : Option (Json × List Char) :=
  match fuel with
  | 0 => none
  | fuel + 1 =>
      match skipBlanks cs with
      | 'n' :: cs => (dropWord "ull".toList cs).map fun rest => (.null, rest)
      | 't' :: cs => (dropWord "rue".toList cs).map fun rest => (.boolean true, rest)
      | 'f' :: cs => (dropWord "alse".toList cs).map fun rest => (.boolean false, rest)
      | '"' :: cs => (readString cs).map fun (s, rest) => (.string (String.ofList s), rest)
      | '[' :: cs =>
          if room = 0 then none
          else
            match skipBlanks cs with
            | ']' :: cs => some (.array [], cs)
            | cs => do
                let (v, cs) ← readValue fuel (room - 1) cs
                let (vs, cs) ← readItems fuel (room - 1) cs
                pure (.array (v :: vs), cs)
      | '{' :: cs =>
          if room = 0 then none
          else
            match skipBlanks cs with
            | '}' :: cs => some (.object [], cs)
            | cs => do
                let (m, cs) ← readMember fuel (room - 1) cs
                let (ms, cs) ← readMembers fuel (room - 1) cs
                pure (.object (Members.ofList (m :: ms)), cs)
      | cs => (Number.read cs).map fun (n, rest) => (.number n, rest)

/-- The items of an array behind the first one, and what follows its end. -/
def readItems (fuel room : Nat) (cs : List Char) : Option (List Json × List Char) :=
  match fuel with
  | 0 => none
  | fuel + 1 =>
      match skipBlanks cs with
      | ']' :: cs => some ([], cs)
      | ',' :: cs => do
          let (v, cs) ← readValue fuel room cs
          let (vs, cs) ← readItems fuel room cs
          pure (v :: vs, cs)
      | _ => none

/-- A key, a colon and a value. -/
def readMember (fuel room : Nat) (cs : List Char) : Option ((String × Json) × List Char) :=
  match fuel with
  | 0 => none
  | fuel + 1 =>
      match skipBlanks cs with
      | '"' :: cs => do
          let (key, cs) ← readString cs
          match skipBlanks cs with
          | ':' :: cs =>
              let (v, cs) ← readValue fuel room cs
              pure ((String.ofList key, v), cs)
          | _ => none
      | _ => none

/-- The members of an object behind the first one, and what follows its end. -/
def readMembers (fuel room : Nat) (cs : List Char) :
    Option (List (String × Json) × List Char) :=
  match fuel with
  | 0 => none
  | fuel + 1 =>
      match skipBlanks cs with
      | '}' :: cs => some ([], cs)
      | ',' :: cs => do
          let (m, cs) ← readMember fuel room cs
          let (ms, cs) ← readMembers fuel room cs
          pure (m :: ms, cs)
      | _ => none

end

/-- The value of a whole text. Each part that is read takes at least one character or
opens a value that does, so twice the length of the text is fuel enough. -/
def parse (s : String) : Option Json := do
  let cs := s.toList
  let (v, rest) ← readValue (2 * cs.length + 2) deepest cs
  if skipBlanks rest = [] then some v else none

/-- The value of a whole text given by its bytes, which have to be well-formed UTF-8. -/
def parseBytes (bytes : ByteArray) : Option Json := do
  let s ← String.fromUTF8? bytes
  parse s

end Json

end BridgeAudit
