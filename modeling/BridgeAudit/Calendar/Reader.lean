import BridgeAudit.Calendar.Instant
import BridgeAudit.Text.Blank

/-!
Reading an instant from a text.

White space around the text is dropped; then four forms are tried in turn.

* `Reader.offsetForm`: every part with its exact number of digits, one of `T`, `t` and a space
  between date and time, and at the end `Z`, `z` or an offset from universal time.
* `Reader.looseForm`: a date and a time without an offset, taken as universal time;
  blanks may stand in front of each number, a part may have fewer digits, and a year with a sign
  more.
* `Reader.dateForm`: a date alone in the same loose form, taken as its midnight.

A fraction of a second is cut to nine digits.
-/

namespace BridgeAudit

namespace Reader

/-- A reader takes a value off the front of a text. -/
abbrev Step (α : Type) := List Char → Option (α × List Char)

/-! ### Parts -/

/-- A character off the front of a text. -/
def literal (c : Char) : List Char → Option (List Char)
  | d :: cs => if d = c then some cs else none
  | [] => none

/-- The digits at the front of a text, at most the given number of them, and what
follows. -/
def digitsUpTo : Nat → List Char → List Char × List Char
  | 0, cs => ([], cs)
  | _ + 1, [] => ([], [])
  | n + 1, c :: cs =>
      if c.isDigit then
        let (ds, rest) := digitsUpTo n cs
        (c :: ds, rest)
      else ([], c :: cs)

/-- A number of exactly so many digits. -/
def exactly (count : Nat) : Step Nat := fun cs =>
  let (ds, rest) := digitsUpTo count cs
  if ds.length = count then some (Digits.value ds, rest) else none

/-- A number of at least one and at most so many digits. -/
def atMost (count : Nat) : Step Nat := fun cs =>
  match digitsUpTo count cs with
  | ([], _) => none
  | (ds, rest) => some (Digits.value ds, rest)

/-- The nanoseconds of a row of digits behind the point of a second. -/
def nanosOf (ds : List Char) : Nat :=
  Digits.value (ds.take 9) * Nat.pow 10 (9 - (ds.take 9).length)

/-- An optional fraction of a second: a point and at least one digit. -/
def fraction : Step Nat
  | '.' :: cs =>
      match digitsUpTo cs.length cs with
      | ([], _) => none
      | (ds, rest) => some (nanosOf ds, rest)
  | cs => some (0, cs)

/-- An offset from universal time, in seconds: a letter for none, or a sign, hours and
minutes. -/
def offset : Step Int
  | 'Z' :: cs => some (0, cs)
  | 'z' :: cs => some (0, cs)
  | c :: cs => do
      let sign ←
        if c = '+' then some (1 : Int)
        else if c = '-' ∨ c = '\u2212' then some (-1) else none
      let (hours, cs) ← exactly 2 cs
      let cs ← literal ':' cs
      let (minutes, cs) ← exactly 2 cs
      if hours ≤ 23 ∧ minutes ≤ 59 then some (sign * (hours * 3600 + minutes * 60 : Nat), cs)
      else none
  | [] => none

/-! ### The form with an offset -/

/-- The character between date and time. -/
def separator : List Char → Option (List Char)
  | c :: cs => if c = 'T' ∨ c = 't' ∨ c = ' ' then some cs else none
  | [] => none

/-- Date, time and offset, each part with its exact number of digits. -/
def offsetForm (cs : List Char) : Option Instant := do
  let (year, cs) ← exactly 4 cs
  let cs ← literal '-' cs
  let (month, cs) ← exactly 2 cs
  let cs ← literal '-' cs
  let (day, cs) ← exactly 2 cs
  let cs ← separator cs
  let (hour, cs) ← exactly 2 cs
  let cs ← literal ':' cs
  let (minute, cs) ← exactly 2 cs
  let cs ← literal ':' cs
  let (second, cs) ← exactly 2 cs
  let (nanos, cs) ← fraction cs
  let (seconds, cs) ← offset cs
  if cs = [] then
    let t ← Stamp.instant? ⟨⟨year, month, day⟩, hour, minute, second, nanos⟩
    some (t.shift (-seconds))
  else none

/-! ### The loose forms -/

/-- A year: up to four digits, or a sign and any number of them. -/
def looseYear (cs : List Char) : Option (Int × List Char) :=
  match Blank.skip cs with
  | '-' :: cs => (atMost cs.length cs).map fun (n, rest) => (-(n : Int), rest)
  | '+' :: cs => (atMost cs.length cs).map fun (n, rest) => ((n : Int), rest)
  | cs => (atMost 4 cs).map fun (n, rest) => ((n : Int), rest)

/-- A number of one or two digits. -/
def looseNumber : Step Nat := fun cs => atMost 2 (Blank.skip cs)

/-- Year, month and day. -/
def looseDate : Step Date := fun cs => do
  let (year, cs) ← looseYear cs
  let cs ← literal '-' cs
  let (month, cs) ← looseNumber cs
  let cs ← literal '-' cs
  let (day, cs) ← looseNumber cs
  pure (⟨year, month, day⟩, cs)

/-- Hour, minute, second and an optional fraction up to the end of the text. -/
def looseClock (date : Date) (cs : List Char) : Option Instant := do
  let (hour, cs) ← looseNumber cs
  let cs ← literal ':' cs
  let (minute, cs) ← looseNumber cs
  let cs ← literal ':' cs
  let (second, cs) ← looseNumber cs
  let (nanos, cs) ← fraction cs
  if cs = [] then Stamp.instant? ⟨date, hour, minute, second, nanos⟩ else none

/-- A date and a time, with what `between` takes off in the middle. -/
def looseForm (between : List Char → Option (List Char)) (cs : List Char) : Option Instant := do
  let (date, cs) ← looseDate cs
  let cs ← between cs
  looseClock date cs

/-- A date alone. -/
def dateForm (cs : List Char) : Option Instant := do
  let (date, cs) ← looseDate cs
  if cs = [] then Stamp.instant? ⟨date, 0, 0, 0, 0⟩ else none

/-- An instant in any of the forms. -/
def instant (cs : List Char) : Option Instant :=
  let cs := Blank.trim cs
  (offsetForm cs).orElse fun _ => (looseForm (literal 'T') cs).orElse fun _ =>
    (looseForm (some ∘ Blank.skip) cs).orElse fun _ => dateForm cs

end Reader

/-- The instant that a text names. -/
def Instant.parse (s : String) : Option Instant := Reader.instant s.toList

end BridgeAudit
