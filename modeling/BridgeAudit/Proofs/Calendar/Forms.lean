import BridgeAudit.Proofs.Calendar.Parts

/-!
The forms in which an instant is written.

* `DateText`, `StampText`, `OffsetText`: a date, a date with a clock time, and an offset from
  universal time, each with the digits that it is written with.
* `StampText.instant?`: the instant that a date with a clock time names, if calendar and clock show
  it.
* `StampText.offsetForm_eq`, `StampText.looseForms_eq`: what each form makes of such a text, with
  anything behind it that does not go on with it.
* `StampText.instant_eq`: so one form reads the text and no other one misreads it.
* `parse_every_form`: the instant of a text in any of the forms.
-/

namespace BridgeAudit

open Digits (Row)
open Reader

/-! ### Texts -/

/-- A date as it is written. -/
structure DateText where
  year : Row 4
  month : Row 2
  day : Row 2

namespace DateText

/-- The text of a date, as characters. -/
def chars (d : DateText) : List Char :=
  d.year.chars ++ '-' :: (d.month.chars ++ '-' :: d.day.chars)

/-- The text of a date. -/
def text (d : DateText) : String := String.ofList d.chars

/-- The date that is written. -/
def date (d : DateText) : Date := ⟨d.year.number, d.month.number, d.day.number⟩

end DateText

/-- A date and a clock time as they are written. -/
structure StampText where
  date : DateText
  separator : Char
  separator_eq : separator = 'T' ∨ separator = ' '
  hour : Row 2
  minute : Row 2
  second : Row 2
  /-- The number of digits behind the point of the second; without any there is no point. -/
  places : Nat
  fraction : Row places

namespace StampText

/-- The clock time, as characters. -/
def clockChars (s : StampText) : List Char :=
  s.hour.chars ++ ':' :: (s.minute.chars ++ ':' :: (s.second.chars ++ pointed s.fraction.chars))

/-- The text of a date and a clock time, as characters. -/
def chars (s : StampText) : List Char := s.date.chars ++ s.separator :: s.clockChars

/-- The text of a date and a clock time. -/
def text (s : StampText) : String := String.ofList s.chars

/-- There is such a day in the calendar and such a time on the clock. -/
def IsShown (s : StampText) : Prop :=
  s.date.date.Valid ∧ s.hour.number ≤ 23 ∧ s.minute.number ≤ 59 ∧ s.second.number ≤ 60

instance (s : StampText) : Decidable s.IsShown := by unfold IsShown; infer_instance

/-- The instant in universal time: the days and the seconds of the day, the fraction cut to nine
digits. Second 60 is second 59 with one more second among the nanoseconds. -/
def instant (s : StampText) : Instant where
  seconds := s.date.date.dayNumber * 86400 +
    (s.hour.number * 3600 + s.minute.number * 60 + min s.second.number 59 : Nat)
  nanos := s.fraction.number * 10 ^ 9 / 10 ^ s.places + if s.second.number = 60 then 10 ^ 9 else 0

/-- The instant in universal time, if calendar and clock show it. -/
def instant? (s : StampText) : Option Instant := if s.IsShown then some s.instant else none

end StampText

/-- An offset from universal time as it is written: a sign, hours and minutes. -/
structure OffsetText where
  sign : Char
  /-- There are two characters for minus. -/
  sign_eq : sign = '+' ∨ sign = '-' ∨ sign = '\u2212'
  hours : Row 2
  minutes : Row 2
  hours_le : hours.number ≤ 23
  minutes_le : minutes.number ≤ 59

namespace OffsetText

/-- The text of an offset, as characters. -/
def chars (o : OffsetText) : List Char :=
  o.sign :: (o.hours.chars ++ ':' :: o.minutes.chars)

/-- The text of an offset. -/
def text (o : OffsetText) : String := String.ofList o.chars

/-- How many seconds ahead of universal time. -/
def seconds (o : OffsetText) : Int :=
  (if o.sign = '+' then 1 else -1) * (o.hours.number * 3600 + o.minutes.number * 60 : Nat)

end OffsetText

/-! ### Reading them -/

variable {rest : List Char}

lemma literal_cons_self (c : Char) (cs : List Char) : literal c (c :: cs) = some cs := if_pos rfl

lemma literal_cons_of_ne {c d : Char} (h : d ≠ c) (cs : List Char) : literal c (d :: cs) = none :=
  if_neg h

/-- A step that has read something hands it on to the steps behind it. -/
lemma bind_of_eq_some {α β : Type} {x : Option α} {a : α} (h : x = some a) (f : α → Option β) :
    (x >>= f) = f a := by
  rw [h]
  rfl

/-- A date in the loose form. -/
lemma DateText.looseDate_eq (d : DateText) (rest : List Char) :
    looseDate (d.chars ++ rest) = some (d.date, rest) := by
  simp only [looseDate, chars, List.append_assoc, List.cons_append,
    ↓bind_of_eq_some (looseYear_row _ _), ↓bind_of_eq_some (looseNumber_row _ _),
    ↓bind_of_eq_some (literal_cons_self _ _)]
  rfl

/-- An offset is read to its end. -/
lemma OffsetText.offset_chars (o : OffsetText) : offset o.chars = some (o.seconds, []) := by
  have hminutes := exactly_row o.minutes []
  rw [List.append_nil] at hminutes
  have hle : o.hours.number ≤ 23 ∧ o.minutes.number ≤ 59 := ⟨o.hours_le, o.minutes_le⟩
  rw [chars, seconds]
  obtain h | h | h := o.sign_eq <;>
    simp [h, offset, exactly_row, literal_cons_self, hminutes, hle]

namespace StampText

variable (s : StampText)

/-- The stamp that is written. -/
def stamp : Stamp :=
  ⟨s.date.date, s.hour.number, s.minute.number, s.second.number, nanosOf s.fraction.chars⟩

/-- The instant of the stamp that is written is the one that is named. -/
lemma stamp_instant? : s.stamp.instant? = s.instant? := by
  have hnanos : nanosOf s.fraction.chars = s.fraction.number * 10 ^ 9 / 10 ^ s.places := by
    rw [nanosOf_eq s.fraction.isDigit, s.fraction.length_eq, Row.number]
  have hlt := nanosOf_lt s.fraction.isDigit
  have hvalid : s.stamp.Valid ↔ s.IsShown := by
    simp only [Stamp.Valid, IsShown, stamp, hlt, and_true]
  have hinstant : s.stamp.instant = s.instant := by
    simp only [Stamp.instant, instant, stamp, hnanos, nanosPerSecond, secondsPerDay]
    congr 1
    push_cast
    ring
  simp only [Stamp.instant?, instant?, hvalid, hinstant]

/-- A clock time in the loose form is read only up to the end of the text. -/
lemma looseClock_eq (hrest : Halts rest) : looseClock s.date.date (s.clockChars ++ rest) =
    if rest = [] then s.instant? else none := by
  rw [← stamp_instant?]
  simp only [looseClock, clockChars, List.append_assoc, List.cons_append,
    ↓bind_of_eq_some (looseNumber_row _ _), ↓bind_of_eq_some (literal_cons_self _ _),
    ↓bind_of_eq_some (fraction_pointed s.fraction.isDigit hrest)]
  rfl

lemma separator_append : Reader.separator (s.separator :: rest) = some rest := by
  obtain h | h := s.separator_eq <;> rw [h] <;> rfl

/-- In the form with an offset the text is read just if an offset follows it to the end. -/
lemma offsetForm_eq (hrest : Halts rest) : offsetForm (s.chars ++ rest) =
    (offset rest).bind fun o =>
      if o.2 = [] then s.instant?.map fun t => t.shift (-o.1) else none := by
  rw [← stamp_instant?]
  simp only [chars, DateText.chars, clockChars, List.append_assoc, List.cons_append]
  simp only [offsetForm, ↓bind_of_eq_some (exactly_row _ _),
    ↓bind_of_eq_some (literal_cons_self _ _), ↓bind_of_eq_some s.separator_append,
    ↓bind_of_eq_some (fraction_pointed s.fraction.isDigit hrest)]
  simp only [Option.map_eq_bind]
  rfl

/-- The clock time starts with a digit, so no blank is skipped there. -/
lemma skip_clockChars : Blank.skip (s.clockChars ++ rest) = s.clockChars ++ rest := by
  rw [clockChars, List.append_assoc, skip_row _ (by decide)]

/-- The letter between date and clock time is no number. -/
lemma looseClock_letter (d : Date) (cs : List Char) : looseClock d ('T' :: cs) = none := by
  rfl

/-- In the loose forms the text is read just if nothing follows it. The form with the letter and the
one with a blank exclude each other, and the one with a date alone leaves the clock time. -/
lemma looseForms_eq (hrest : Halts rest) :
    ((looseForm (literal 'T') (s.chars ++ rest)).orElse fun _ =>
      (looseForm (some ∘ Blank.skip) (s.chars ++ rest)).orElse fun _ =>
        dateForm (s.chars ++ rest)) =
    if rest = [] then s.instant? else none := by
  have hdate : dateForm (s.chars ++ rest) = none := by
    simp only [dateForm, chars, List.append_assoc, List.cons_append, DateText.looseDate_eq,
      Option.bind_eq_bind, Option.bind_some]
    rfl
  have hform : ∀ between, looseForm between (s.chars ++ rest) =
      (between (s.separator :: (s.clockChars ++ rest))).bind (looseClock s.date.date) := by
    intro between
    simp only [looseForm, chars, List.append_assoc, List.cons_append, DateText.looseDate_eq,
      Option.bind_eq_bind, Option.bind_some]
  rw [hform, hform, hdate]
  obtain h | h := s.separator_eq
  · have hskip : Blank.skip ('T' :: (s.clockChars ++ rest)) = 'T' :: (s.clockChars ++ rest) :=
      Blank.skip_cons_of_not (by decide) _
    simp only [h, literal_cons_self, Function.comp_apply, hskip, Option.bind_some,
      looseClock_letter, s.looseClock_eq hrest]
    cases (if rest = [] then s.instant? else none) <;> rfl
  · have hskip : Blank.skip ([' '] ++ (s.clockChars ++ rest)) = s.clockChars ++ rest :=
      (Blank.skip_append_of_blank (List.all_eq_true.1 (by decide))).trans s.skip_clockChars
    rw [List.singleton_append] at hskip
    simp only [h, literal_cons_of_ne (show ' ' ≠ 'T' by decide), Function.comp_apply, hskip,
      Option.bind_none, Option.bind_some, s.looseClock_eq hrest]
    cases (if rest = [] then s.instant? else none) <;> rfl

lemma starts_chars (rest : List Char) : Blank.Starts (s.chars ++ rest) := by
  rw [chars, DateText.chars, List.append_assoc, List.append_assoc]
  exact (row_starts _ (by decide)).append _

lemma ends_chars : Blank.Ends s.chars := by
  rw [chars, clockChars]
  refine Blank.Ends.append (.cons (.append (.cons (.append (.cons ?_ _) _) _) _) _) _
  exact ends_append_pointed (row_ends _ (by decide)) s.fraction.isDigit

/-- What a text is read as, whatever follows it. -/
lemma instant_eq (hrest : Halts rest) (hends : Blank.Ends (s.chars ++ rest)) :
    Reader.instant (s.chars ++ rest) =
      ((offset rest).bind fun o =>
        if o.2 = [] then s.instant?.map fun t => t.shift (-o.1) else none).orElse fun _ =>
          if rest = [] then s.instant? else none := by
  simp only [Reader.instant, Blank.trim_eq_self (s.starts_chars rest) hends,
    s.offsetForm_eq hrest, s.looseForms_eq hrest]

/-- Without an offset the text is taken as universal time. -/
lemma instant_chars : Reader.instant s.chars = s.instant? := by
  have h := s.instant_eq halts_nil (by simpa using s.ends_chars)
  rwa [List.append_nil] at h

/-- So it is with the letter of universal time. -/
lemma instant_zulu : Reader.instant (s.chars ++ ['Z']) = s.instant? := by
  have hends : Blank.Ends ['Z'] := ⟨[], 'Z', rfl, by decide⟩
  rw [s.instant_eq (halts_cons (by decide) (by decide)) (hends.append _)]
  cases s.instant? with
  | none => rfl
  | some t => simp [offset, Instant.shift]

/-- With an offset the instant is moved back by it. -/
lemma instant_offset (o : OffsetText) :
    Reader.instant (s.chars ++ o.chars) = s.instant?.map fun t => t.shift (-o.seconds) := by
  have hends : Blank.Ends o.chars := ((row_ends o.minutes (by decide)).cons _).append _ |>.cons _
  have hhalts : Halts o.chars := by
    rw [OffsetText.chars]
    obtain h | h | h := o.sign_eq <;> rw [h] <;> exact halts_cons (by decide) (by decide)
  have hread : offset o.chars = some (o.seconds, []) := o.offset_chars
  rw [s.instant_eq hhalts (hends.append _), hread]
  cases s.instant? <;> simp [OffsetText.chars]

end StampText

/-! ### A date alone -/

namespace DateText

variable (d : DateText)

/-- The row of two zeros. -/
def zeros : Row 2 := Row.padded 0 (by decide) (by decide)

lemma number_zeros : zeros.number = 0 := Row.number_padded _ _

/-- Midnight at the start of a day, as it is written to the second. -/
def midnight : StampText :=
  ⟨d, 'T', .inl rfl, zeros, zeros, zeros, 0, ⟨[], by simp, rfl⟩⟩

lemma chars_midnight : d.midnight.chars = d.chars ++ "T00:00:00".toList := by
  rfl

lemma stamp_midnight : d.midnight.stamp = ⟨d.date, 0, 0, 0, 0⟩ := by
  have hnanos : nanosOf [] = 0 := by rw [nanosOf, List.take_nil, Digits.value_nil, Nat.zero_mul]
  simp only [StampText.stamp, midnight, number_zeros, hnanos]

lemma midnight_instant? :
    d.midnight.instant? = if d.date.Valid then some ⟨d.date.dayNumber * 86400, 0⟩ else none := by
  have hvalid : (⟨d.date, 0, 0, 0, 0⟩ : Stamp).Valid ↔ d.date.Valid := by
    simp [Stamp.Valid, nanosPerSecond]
  have hinstant : (⟨d.date, 0, 0, 0, 0⟩ : Stamp).instant = ⟨d.date.dayNumber * 86400, 0⟩ := by
    simp [Stamp.instant, secondsPerDay]
  rw [← StampText.stamp_instant?, d.stamp_midnight, Stamp.instant?]
  simp only [hvalid, hinstant]

/-- A date alone is read as its midnight: every other form waits for a clock time. -/
lemma instant_chars : Reader.instant d.chars = d.midnight.instant? := by
  have hstarts : Blank.Starts d.chars := (row_starts _ (by decide)).append _
  have hends : Blank.Ends d.chars :=
    Blank.Ends.append (.cons (.append (.cons (row_ends _ (by decide)) _) _) _) _
  have hdate := d.looseDate_eq []
  rw [List.append_nil] at hdate
  have hoffset : offsetForm d.chars = none := by
    have hday := exactly_row d.day []
    rw [List.append_nil] at hday
    rw [chars]
    simp only [offsetForm, ↓bind_of_eq_some (exactly_row _ _), ↓bind_of_eq_some hday,
      ↓bind_of_eq_some (literal_cons_self _ _)]
    rfl
  have hform : ∀ between, looseForm between d.chars = (between []).bind (looseClock d.date) :=
    fun between => by simp only [looseForm, ↓bind_of_eq_some hdate]; rfl
  have hday : dateForm d.chars = d.midnight.instant? := by
    rw [← StampText.stamp_instant?, d.stamp_midnight]
    simp only [dateForm, ↓bind_of_eq_some hdate]
    rfl
  simp only [Reader.instant, Blank.trim_eq_self hstarts hends, hoffset, hform, hday]
  rfl

end DateText

/-! ### All forms -/

/-- **One instant in every form.** A date and a clock time without an offset, with the letter of
universal time and with an offset name the same instant, which the offset moves back, or none of
them does, if calendar or clock do not show them. A date alone is its midnight. Blanks around a text
change nothing. -/
theorem parse_every_form :
    (∀ s : StampText, Instant.parse s.text = s.instant? ∧
      Instant.parse (s.text ++ "Z") = s.instant? ∧
      ∀ o : OffsetText,
        Instant.parse (s.text ++ o.text) = s.instant?.map fun t => t.shift (-o.seconds)) ∧
    (∀ d : DateText, Instant.parse d.text = Instant.parse (d.text ++ "T00:00:00Z") ∧
      Instant.parse d.text =
        if d.date.Valid then some ⟨d.date.dayNumber * 86400, 0⟩ else none) ∧
    ∀ front text back : String, (∀ c ∈ front.toList, Blank.is c) → (∀ c ∈ back.toList, Blank.is c) →
      Instant.parse (front ++ (text ++ back)) = Instant.parse text := by
  refine ⟨fun s => ⟨?_, ?_, fun o => ?_⟩, fun d => ⟨?_, ?_⟩, fun front text back hfront hback => ?_⟩
  · rw [Instant.parse, StampText.text, String.toList_ofList, s.instant_chars]
  · rw [Instant.parse, StampText.text, String.toList_append, String.toList_ofList]
    exact s.instant_zulu
  · rw [Instant.parse, StampText.text, OffsetText.text, String.toList_append, String.toList_ofList,
      String.toList_ofList, s.instant_offset]
  · have hmidnight : (d.text ++ "T00:00:00Z").toList = d.midnight.chars ++ ['Z'] := by
      rw [String.toList_append, DateText.text, String.toList_ofList, d.chars_midnight,
        List.append_assoc]
      rfl
    rw [Instant.parse, Instant.parse, hmidnight, d.midnight.instant_zulu, DateText.text,
      String.toList_ofList, d.instant_chars]
  · rw [Instant.parse, DateText.text, String.toList_ofList, d.instant_chars, d.midnight_instant?]
  · rw [Instant.parse, Instant.parse, String.toList_append, String.toList_append, Reader.instant,
      Reader.instant, Blank.trim_around hfront hback]

/-- The last second of 2016, a leap second, with more digits than are kept. -/
def leapSecond : StampText where
  date := ⟨.ofChars ['2', '0', '1', '6'] (by decide), .ofChars ['1', '2'] (by decide),
    .ofChars ['3', '1'] (by decide)⟩
  separator := ' '
  separator_eq := .inr rfl
  hour := .ofChars ['2', '3'] (by decide)
  minute := .ofChars ['5', '9'] (by decide)
  second := .ofChars ['6', '0'] (by decide)
  places := 10
  fraction := .ofChars ['9', '9', '9', '9', '9', '9', '9', '9', '9', '9'] (by decide)

/-- One minute behind universal time. -/
def minuteBehind : OffsetText where
  sign := '-'
  sign_eq := .inr (.inl rfl)
  hours := .ofChars ['0', '0'] (by decide)
  minutes := .ofChars ['0', '1'] (by decide)
  hours_le := by decide
  minutes_le := by decide

/-- The leap second is read with blanks of two kinds around it, and one minute later with an
offset. -/
theorem parse_leapSecond :
    (∀ c ∈ "\t".toList, Blank.is c) ∧ (∀ c ∈ "\u3000".toList, Blank.is c) ∧
      leapSecond.text = "2016-12-31 23:59:60.9999999999" ∧
      Instant.parse ("\t" ++ (leapSecond.text ++ "\u3000")) = some ⟨1483228799, 1999999999⟩ ∧
      Instant.parse (leapSecond.text ++ minuteBehind.text) = some ⟨1483228859, 1999999999⟩ := by
  have hfront : ∀ c ∈ "\t".toList, Blank.is c := List.all_eq_true.1 (by decide)
  have hback : ∀ c ∈ "\u3000".toList, Blank.is c := List.all_eq_true.1 (by decide)
  have hinstant : leapSecond.instant? = some ⟨1483228799, 1999999999⟩ := by decide +kernel
  obtain ⟨hforms, -, hblank⟩ := parse_every_form
  obtain ⟨hplain, -, hoffset⟩ := hforms leapSecond
  refine ⟨hfront, hback, by decide, ?_, ?_⟩
  · rw [hblank "\t" leapSecond.text "\u3000" hfront hback, hplain, hinstant]
  · rw [hoffset minuteBehind, hinstant]
    decide +kernel

end BridgeAudit
