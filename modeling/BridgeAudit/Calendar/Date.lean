/-!
Days of the proleptic Gregorian calendar.

* `Date`: a year, which may be zero or negative, a month and a day of the month.
* `Date.dayNumber`: the number of days since 1 January 1970.
* `Date.ofDayNumber`: the date of a day number.

The year is cut into cycles of 400 years, each of 146097 days, and these into
centuries, spans of four years and single years; the last of each may be one day
longer or shorter than the others.
-/

namespace BridgeAudit

/-- A day of the calendar. -/
structure Date where
  year : Int
  month : Nat
  day : Nat
  deriving DecidableEq, Repr, Inhabited

namespace Date

/-- A year has 366 days if 4 divides it, unless it is a full century that 400 does not
divide. -/
def isLeap (year : Int) : Bool := year % 4 = 0 && (year % 100 ≠ 0 || year % 400 = 0)

/-- The lengths of the months of a year. -/
def monthLengths (leap : Bool) : List Nat :=
  [31, if leap then 29 else 28, 31, 30, 31, 30, 31, 31, 30, 31, 30, 31]

/-- The number of days of a month, counted from one; there is no month beyond twelve. -/
def monthLength (leap : Bool) (month : Nat) : Nat := (monthLengths leap).getD (month - 1) 0

/-- The number of days in front of a month, counted from one. -/
def daysBeforeMonth (leap : Bool) (month : Nat) : Nat :=
  ((monthLengths leap).take (month - 1)).foldr (· + ·) 0

/-- The number of days from 1 January of the year 1 to 1 January of the given year. -/
def daysBeforeYear (year : Int) : Int :=
  let y := year - 1
  365 * y + y / 4 - y / 100 + y / 400

/-- The number of days from 1 January of the year 1 to 1 January 1970. -/
def epoch : Int := 719162

/-- The first and the last year that can be dealt with. -/
def firstYear : Int := -262143

/-- The last year that can be dealt with. -/
def lastYear : Int := 262142

/-- A date that the calendar has. -/
def Valid (d : Date) : Prop :=
  firstYear ≤ d.year ∧ d.year ≤ lastYear ∧ 1 ≤ d.month ∧ d.month ≤ 12 ∧ 1 ≤ d.day ∧
    d.day ≤ monthLength (isLeap d.year) d.month

instance (d : Date) : Decidable d.Valid := by unfold Valid; infer_instance

/-- The number of days since 1 January 1970. -/
def dayNumber (d : Date) : Int :=
  daysBeforeYear d.year + daysBeforeMonth (isLeap d.year) d.month + d.day - 1 - epoch

/-- The month and the day of a day of the year, counted from zero, given the lengths of the months
from the given one on. -/
def ofDayOfYear (month day : Nat) : List Nat → Nat × Nat
  | [] => (month, day + 1)
  | length :: rest =>
      if day < length then (month, day + 1) else ofDayOfYear (month + 1) (day - length) rest

/-- The date that is the given number of days after 1 January 1970. -/
def ofDayNumber (n : Int) : Date :=
  let days := n + epoch
  let cycle := days / 146097
  let inCycle := (days % 146097).toNat
  let century := min (inCycle / 36524) 3
  let inCentury := inCycle - 36524 * century
  let span := inCentury / 1461
  let inSpan := inCentury % 1461
  let single := min (inSpan / 365) 3
  let year := 400 * cycle + 100 * century + 4 * span + single + 1
  let (month, day) := ofDayOfYear 1 (inSpan - 365 * single) (monthLengths (isLeap year))
  ⟨year, month, day⟩

example : dayNumber ⟨1970, 1, 1⟩ = 0 ∧ dayNumber ⟨2000, 3, 1⟩ = 11017 ∧
    dayNumber ⟨0, 1, 1⟩ = -719528 := by decide

example : ofDayNumber 11016 = ⟨2000, 2, 29⟩ ∧ ofDayNumber (-1) = ⟨1969, 12, 31⟩ ∧
    ofDayNumber (-719528) = ⟨0, 1, 1⟩ := by decide

end Date

end BridgeAudit
