import Mathlib.Tactic
import Mathlib.Data.List.GetD
import BridgeAudit.Calendar.Date

/-!
Dates and their day numbers.

* `Date.tomorrow`, `Date.dayNumber_tomorrow`: day numbers count the days of the calendar one by
  one.
* `Date.exists_dayOfYear`: a day number falls on a day of a year.
* `Date.ofDayOfYear_eq`: a day of the year falls in one of its months.
* `Date.dayNumber_ofDayNumber`, `Date.valid_ofDayNumber`: the date of a day number has that number,
  and it is a day that the calendar has.
-/

namespace BridgeAudit

namespace Date

variable {month day : Nat} {d : Date}

/-! ### Years and months -/

/-- The number of days of a year. -/
def yearLength (leap : Bool) : Nat := if leap then 366 else 365

lemma daysBeforeYear_succ (year : Int) :
    daysBeforeYear (year + 1) = daysBeforeYear year + yearLength (isLeap year) := by
  simp only [daysBeforeYear, yearLength, isLeap, Bool.and_eq_true, Bool.or_eq_true,
    decide_eq_true_eq]
  split <;> omega

lemma daysBeforeMonth_succ (leap : Bool) (h : 1 ≤ month) :
    daysBeforeMonth leap (month + 1) = daysBeforeMonth leap month + monthLength leap month := by
  obtain ⟨i, rfl⟩ := Nat.exists_eq_add_of_le' h
  rw [daysBeforeMonth, daysBeforeMonth, monthLength, Nat.add_sub_cancel, Nat.add_sub_cancel]
  by_cases hi : i < (monthLengths leap).length
  · rw [List.take_succ_eq_append_getElem hi, List.getD_eq_getElem _ _ hi]
    exact List.sum_append.trans (congrArg _ List.sum_singleton)
  · rw [List.take_of_length_le (by omega), List.take_of_length_le (by omega),
      List.getD_eq_default _ _ (by omega), Nat.add_zero]

/-- The months make up the year. -/
lemma daysBeforeMonth_thirteen (leap : Bool) : daysBeforeMonth leap 13 = yearLength leap := by
  cases leap <;> rfl

/-- No month is longer than 31 days. -/
lemma monthLength_le (leap : Bool) (month : Nat) : monthLength leap month ≤ 31 := by
  have hlengths : ∀ n ∈ monthLengths leap, n ≤ 31 := by cases leap <;> decide
  rw [monthLength]
  by_cases hi : month - 1 < (monthLengths leap).length
  · rw [List.getD_eq_getElem _ _ hi]
    exact hlengths _ (List.getElem_mem hi)
  · rw [List.getD_eq_default _ _ (by omega)]
    omega

/-! ### The day behind a day -/

/-- The day behind a day: the next one of the month, or the first of the next month. -/
def tomorrow (d : Date) : Date :=
  if d.day < monthLength (isLeap d.year) d.month then { d with day := d.day + 1 }
  else if d.month < 12 then ⟨d.year, d.month + 1, 1⟩
  else ⟨d.year + 1, 1, 1⟩

/-- **Day numbers count days.** The day behind a day of the calendar has the next day number;
1 January 1970 has the number zero. -/
theorem dayNumber_tomorrow (h : d.Valid) : d.tomorrow.dayNumber = d.dayNumber + 1 := by
  obtain ⟨year, month, day⟩ := d
  obtain ⟨-, -, hmonth, hmonth', hday, hday'⟩ := h
  dsimp only at hmonth hmonth' hday hday'
  have hnext := daysBeforeMonth_succ (isLeap year) hmonth
  simp only [tomorrow]
  split
  · simp only [dayNumber]
    omega
  · split
    · simp only [dayNumber, hnext]
      omega
    · -- the last day of December
      obtain rfl : month = 12 := by omega
      have hyear := daysBeforeYear_succ year
      have hfirst : daysBeforeMonth (isLeap (year + 1)) 1 = 0 := rfl
      rw [daysBeforeMonth_thirteen] at hnext
      simp only [dayNumber, hyear, hfirst]
      omega

example : dayNumber ⟨1970, 1, 1⟩ = 0 ∧ tomorrow ⟨1900, 2, 28⟩ = ⟨1900, 3, 1⟩ := by decide

/-! ### The date of a day number -/

/-- Each day of a year with such months falls in one of them. -/
lemma ofDayOfYear_eq (month : Nat) {lengths : List Nat} (h : day < lengths.sum) :
    ∃ i, i < lengths.length ∧ (lengths.take i).sum ≤ day ∧
      day < (lengths.take i).sum + lengths.getD i 0 ∧
      ofDayOfYear month day lengths = (month + i, day - (lengths.take i).sum + 1) := by
  induction lengths generalizing month day with
  | nil => simp at h
  | cons length rest ih =>
      rw [ofDayOfYear]
      split
      next hlt => exact ⟨0, by simp, by simp, by simpa using hlt, by simp⟩
      next hge =>
        rw [List.sum_cons] at h
        have hrest : day - length < rest.sum := by omega
        obtain ⟨i, hi, hle, hlt, heq⟩ := ih (month + 1) hrest
        refine ⟨i + 1, by simpa using hi, ?_, ?_, ?_⟩
        · rw [List.take_succ_cons, List.sum_cons]
          omega
        · rw [List.take_succ_cons, List.sum_cons, List.getD_cons_succ]
          omega
        · rw [heq, List.take_succ_cons, List.sum_cons, Nat.sub_sub, Nat.add_assoc month,
            Nat.add_comm 1 i]

/-- The days before a year of a cycle of 400 years, given its century in that cycle, its span of
four years in that century and its place in that span. -/
lemma daysBeforeYear_of_parts (cycle : Int) {century span single : Nat} (hcentury : century ≤ 3)
    (hspan : span ≤ 24) (hsingle : single ≤ 3) :
    daysBeforeYear (400 * cycle + 100 * century + 4 * span + single + 1) =
      146097 * cycle + 36524 * century + 1461 * span + 365 * single := by
  simp only [daysBeforeYear]
  omega

/-- A day number falls on a day of a year, which is put together from such parts. -/
lemma exists_dayOfYear (n : Int) : ∃ (year : Int) (day : Nat),
    daysBeforeYear year + day = n + epoch ∧ day < yearLength (isLeap year) ∧
      ofDayNumber n =
        ⟨year, (ofDayOfYear 1 day (monthLengths (isLeap year))).1,
          (ofDayOfYear 1 day (monthLengths (isLeap year))).2⟩ := by
  let cycle := (n + epoch) / 146097
  let inCycle := ((n + epoch) % 146097).toNat
  let century := min (inCycle / 36524) 3
  let inCentury := inCycle - 36524 * century
  let span := inCentury / 1461
  let inSpan := inCentury % 1461
  let single := min (inSpan / 365) 3
  refine ⟨400 * cycle + 100 * century + 4 * span + single + 1, inSpan - 365 * single, ?_, ?_, rfl⟩
  · rw [daysBeforeYear_of_parts cycle (by omega) (by omega) (by omega)]
    omega
  · -- the last day of a leap year needs a span that ends with one
    simp only [yearLength, isLeap, Bool.and_eq_true, Bool.or_eq_true, decide_eq_true_eq]
    split <;> omega

/-- The date of a day number has a month and a day that its year has. -/
lemma day_ofDayNumber (n : Int) :
    let d := ofDayNumber n
    1 ≤ d.month ∧ d.month ≤ 12 ∧ 1 ≤ d.day ∧ d.day ≤ monthLength (isLeap d.year) d.month ∧
      d.dayNumber = n := by
  obtain ⟨year, day, hday, hlt, heq⟩ := exists_dayOfYear n
  have hsum : (monthLengths (isLeap year)).sum = yearLength (isLeap year) :=
    daysBeforeMonth_thirteen _
  obtain ⟨i, hi, hle, hlt', hof⟩ := ofDayOfYear_eq 1 (hsum ▸ hlt)
  have hi' : i < 12 := hi
  have hbefore : daysBeforeMonth (isLeap year) (1 + i) =
      ((monthLengths (isLeap year)).take i).sum := by
    rw [daysBeforeMonth, Nat.add_sub_cancel_left]
    rfl
  have hlength : monthLength (isLeap year) (1 + i) = (monthLengths (isLeap year)).getD i 0 := by
    rw [monthLength, Nat.add_sub_cancel_left]
  simp only [heq, hof, dayNumber, hbefore, hlength]
  omega

/-- The date of a day number has that number. -/
theorem dayNumber_ofDayNumber (n : Int) : (ofDayNumber n).dayNumber = n :=
  (day_ofDayNumber n).2.2.2.2

/-- The date of a day number is a day of the calendar, unless its year is out of reach. -/
theorem valid_ofDayNumber {n : Int} (h : firstYear ≤ (ofDayNumber n).year)
    (h' : (ofDayNumber n).year ≤ lastYear) : (ofDayNumber n).Valid := by
  obtain ⟨hmonth, hmonth', hday, hday', -⟩ := day_ofDayNumber n
  exact ⟨h, h', hmonth, hmonth', hday, hday'⟩

end Date

end BridgeAudit
