import BridgeAudit.Calendar.Date
import BridgeAudit.Text.Digits

/-!
Instants of universal time.

* `Instant`: whole seconds since 1 January 1970 and nanoseconds; from `10 ^ 9` on the
  nanoseconds lie in the leap second behind that second.
* `Stamp`: the date and the clock time of an instant; `Stamp.instant?` is `none` for a
  stamp that no calendar or clock shows.
* `Instant.elapsed`: the nanoseconds from one instant to another.
* `Instant.serialise`, `Instant.display`: the two ways to write an instant.
-/

namespace BridgeAudit

/-- An instant of universal time. -/
structure Instant where
  seconds : Int
  nanos : Nat
  deriving DecidableEq, Repr, Inhabited

/-- A date and a clock time; second 60 is a leap second. -/
structure Stamp where
  date : Date
  hour : Nat
  minute : Nat
  second : Nat
  nanos : Nat
  deriving DecidableEq, Repr, Inhabited

/-- The number of nanoseconds in a second. -/
def nanosPerSecond : Nat := 1000000000

/-- The number of seconds in a day. -/
def secondsPerDay : Nat := 86400

namespace Stamp

/-- A stamp that calendar and clock can show. -/
def Valid (s : Stamp) : Prop :=
  s.date.Valid ∧ s.hour ≤ 23 ∧ s.minute ≤ 59 ∧ s.second ≤ 60 ∧ s.nanos < nanosPerSecond

instance (s : Stamp) : Decidable s.Valid := by unfold Valid; infer_instance

/-- The instant of a stamp in universal time. Second 60 is second 59 with one more second among
the nanoseconds. -/
def instant (s : Stamp) : Instant :=
  { seconds :=
      s.date.dayNumber * secondsPerDay + s.hour * 3600 + s.minute * 60 + min s.second 59
    nanos := s.nanos + if s.second = 60 then nanosPerSecond else 0 }

/-- The instant of a stamp, if there is such a stamp. -/
def instant? (s : Stamp) : Option Instant := if s.Valid then some s.instant else none

/-- The stamp of an instant. -/
def ofInstant (t : Instant) : Stamp :=
  let inDay := (t.seconds % secondsPerDay).toNat
  { date := Date.ofDayNumber (t.seconds / secondsPerDay)
    hour := inDay / 3600
    minute := inDay / 60 % 60
    second := inDay % 60 + t.nanos / nanosPerSecond
    nanos := t.nanos % nanosPerSecond }

end Stamp

namespace Instant

/-! ### Order and distance -/

/-- One instant is not later than another. -/
def le (a b : Instant) : Bool :=
  a.seconds < b.seconds || (a.seconds = b.seconds && a.nanos ≤ b.nanos)

instance : LE Instant := ⟨fun a b => a.le b⟩

instance (a b : Instant) : Decidable (a ≤ b) := inferInstanceAs (Decidable (a.le b = true))

/-- An instant moved by a number of seconds. -/
def shift (t : Instant) (seconds : Int) : Instant := { t with seconds := t.seconds + seconds }

/-- How many leap seconds lie between two clock times: the one that the earlier of the two
stands in, if there is one. -/
def leapBetween (start stop : Instant) : Int :=
  let a := start.seconds % secondsPerDay
  let b := stop.seconds % secondsPerDay
  if a < b then (if nanosPerSecond ≤ start.nanos then 1 else 0)
  else if b < a then (if nanosPerSecond ≤ stop.nanos then -1 else 0)
  else 0

/-- The nanoseconds from one instant to another, negative if the second one is earlier. -/
def elapsed (start stop : Instant) : Int :=
  (stop.seconds - start.seconds + leapBetween start stop) * nanosPerSecond +
    (stop.nanos - start.nanos)

/-! ### Text -/

/-- A year: four digits, or a sign and at least four digits outside 0 to 9999. -/
def yearChars (year : Int) : List Char :=
  if 0 ≤ year ∧ year ≤ 9999 then Digits.padded 4 year.toNat
  else (if year < 0 then '-' else '+') :: Digits.padded 4 year.natAbs

/-- A date as year, month and day. -/
def dateChars (d : Date) : List Char :=
  yearChars d.year ++ '-' :: Digits.padded 2 d.month ++ '-' :: Digits.padded 2 d.day

/-- A clock time as hour, minute and second. -/
def clockChars (s : Stamp) : List Char :=
  Digits.padded 2 s.hour ++ ':' :: Digits.padded 2 s.minute ++ ':' :: Digits.padded 2 s.second

/-- The fraction of a second with as few of 0, 3, 6 or 9 digits as are exact. -/
def fractionChars (nanos : Nat) : List Char :=
  if nanos = 0 then []
  else if nanos % 1000000 = 0 then '.' :: Digits.padded 3 (nanos / 1000000)
  else if nanos % 1000 = 0 then '.' :: Digits.padded 6 (nanos / 1000)
  else '.' :: Digits.padded 9 nanos

/-- An instant for machines, as characters: date, clock time, fraction and the letter of
universal time. -/
def serialChars (t : Instant) : List Char :=
  let s := Stamp.ofInstant t
  dateChars s.date ++ 'T' :: clockChars s ++ fractionChars s.nanos ++ ['Z']

/-- An instant for machines. -/
def serialise (t : Instant) : String := String.ofList (serialChars t)

/-- An instant for people: date and clock time to the second. -/
def display (t : Instant) : String :=
  let s := Stamp.ofInstant t
  String.ofList (dateChars s.date ++ ' ' :: clockChars s)

end Instant

end BridgeAudit
