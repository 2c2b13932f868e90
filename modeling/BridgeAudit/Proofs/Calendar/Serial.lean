import BridgeAudit.Proofs.Calendar.Date
import BridgeAudit.Proofs.Calendar.Forms

/-!
Instants written for machines and read again.

* `Instant.IsShown`: an instant that a clock can show; `Instant.HasPlainYear`: one in a year of four
  digits.
* `Stamp.instant_ofInstant`, `Stamp.valid_ofInstant`: the stamp of such an instant is a stamp of
  calendar and clock, and it stands for the instant.
* `Instant.exists_stampText`: within four digits of the year the text is in the form with an offset.
* `Reader.looseForms_eq_none`: no loose form reads a text with the letter of universal time in it.
* `parse_serialise`: what is written is read as the instant that it was, or not at all.
* `Instant.isShown_of_parse`: whatever is read is an instant that a clock can show.
-/

namespace BridgeAudit

open Digits (Row)
open Reader

/-! ### Stamps of instants -/

/-- The year of an instant in universal time. -/
def Instant.year (t : Instant) : Int := (Stamp.ofInstant t).date.year

/-- A clock can show the instant: it has less than a second of nanoseconds, or it is in the leap
second behind second 59 of a minute. -/
def Instant.IsShown (t : Instant) : Prop :=
  t.nanos < nanosPerSecond ∨ t.nanos < 2 * nanosPerSecond ∧ t.seconds % 60 = 59

instance (t : Instant) : Decidable t.IsShown := by unfold Instant.IsShown; infer_instance

/-- A year of four digits. -/
def Instant.HasPlainYear (t : Instant) : Prop := 0 ≤ t.year ∧ t.year ≤ 9999

instance (t : Instant) : Decidable t.HasPlainYear := by unfold Instant.HasPlainYear; infer_instance

namespace Stamp

variable {t : Instant}

/-- The stamp of an instant stands for the instant. -/
theorem instant_ofInstant (h : t.IsShown) : (ofInstant t).instant = t := by
  have hsecond : (ofInstant t).second =
      (t.seconds % secondsPerDay).toNat % 60 + t.nanos / nanosPerSecond := rfl
  have hnanos : (ofInstant t).nanos = t.nanos % nanosPerSecond := rfl
  have hleap : (ofInstant t).second = 60 ↔ nanosPerSecond ≤ t.nanos := by
    simp only [Instant.IsShown, nanosPerSecond, secondsPerDay] at *
    omega
  have hseconds : (ofInstant t).instant.seconds = t.seconds := by
    simp only [instant, ofInstant, Date.dayNumber_ofDayNumber]
    simp only [Instant.IsShown, nanosPerSecond, secondsPerDay] at *
    omega
  have hsum : (ofInstant t).instant.nanos =
      (ofInstant t).nanos + if (ofInstant t).second = 60 then nanosPerSecond else 0 := rfl
  have hnanos' : (ofInstant t).instant.nanos = t.nanos := by
    rw [hsum, hnanos]
    split
    next hsixty =>
      have hle := hleap.1 hsixty
      simp only [Instant.IsShown, nanosPerSecond] at h hle ⊢
      omega
    next hsixty =>
      have hlt := mt hleap.2 hsixty
      simp only [nanosPerSecond] at hlt ⊢
      omega
  exact congrArg₂ Instant.mk hseconds hnanos'

/-- The stamp of an instant is one that calendar and clock show. -/
theorem valid_ofInstant (h : t.IsShown) (hyear : t.HasPlainYear) : (ofInstant t).Valid := by
  have hdate : (ofInstant t).date.Valid :=
    Date.valid_ofDayNumber (le_trans (by decide) hyear.1) (le_trans hyear.2 (by decide))
  refine ⟨hdate, ?_⟩
  simp only [Instant.IsShown, nanosPerSecond] at h
  simp only [ofInstant, nanosPerSecond, secondsPerDay]
  omega

end Stamp

/-! ### The text of an instant -/

/-- Digits behind the point, as so many of a second. -/
lemma nanosOf_padded {places n : Nat} (hplaces : 0 < places) (h : n < 10 ^ places) :
    nanosOf (Digits.padded places n) = n * 10 ^ 9 / 10 ^ places := by
  rw [nanosOf_eq fun _ => Digits.isDigit_of_mem_padded, Digits.value_padded,
    Digits.length_padded hplaces h]

lemma pointed_padded {places n : Nat} (hplaces : 0 < places) (h : n < 10 ^ places) :
    pointed (Digits.padded places n) = '.' :: Digits.padded places n := by
  have hlength := Digits.length_padded hplaces h
  match hdigits : Digits.padded places n with
  | [] =>
      rw [hdigits, List.length_nil] at hlength
      omega
  | _ :: _ => rfl

/-- The fraction that is written has the nanoseconds for its value, however many digits it has. -/
lemma exists_fraction {nanos : Nat} (h : nanos < nanosPerSecond) :
    ∃ (places : Nat) (r : Row places),
      pointed r.chars = Instant.fractionChars nanos ∧ nanosOf r.chars = nanos := by
  rw [nanosPerSecond] at h
  rw [Instant.fractionChars]
  split
  next hzero => exact ⟨0, ⟨[], by simp, rfl⟩, rfl, by simp [nanosOf, hzero]⟩
  next =>
    have hrow : ∀ places n, 0 < places → n < 10 ^ places → n * 10 ^ 9 / 10 ^ places = nanos →
        ∃ (k : Nat) (r : Row k),
          pointed r.chars = '.' :: Digits.padded places n ∧ nanosOf r.chars = nanos :=
      fun places n hplaces hn hnanos =>
        ⟨places, Row.padded n hplaces hn, pointed_padded hplaces hn,
          (nanosOf_padded hplaces hn).trans hnanos⟩
    split
    · exact hrow 3 _ (by decide) (by omega) (by omega)
    · split
      · exact hrow 6 _ (by decide) (by omega) (by omega)
      · exact hrow 9 _ (by decide) (by omega) (by omega)

namespace DateText

variable {d : Date} (h : d.Valid) (hyear : 0 ≤ d.year ∧ d.year ≤ 9999)

include hyear in
lemma toNat_year_lt : d.year.toNat < 10 ^ 4 := by omega

include h in
lemma month_lt : d.month < 10 ^ 2 := h.2.2.2.1.trans_lt (by decide)

include h in
lemma day_lt : d.day < 10 ^ 2 :=
  (h.2.2.2.2.2.trans (Date.monthLength_le _ _)).trans_lt (by decide)

/-- The numerals of a date, with zeros in front. -/
def ofDate (d : Date) (h : d.Valid) (hyear : 0 ≤ d.year ∧ d.year ≤ 9999) : DateText where
  year := .padded d.year.toNat (Nat.succ_pos 3) (toNat_year_lt hyear)
  month := .padded d.month (Nat.succ_pos 1) (month_lt h)
  day := .padded d.day (Nat.succ_pos 1) (day_lt h)

lemma chars_ofDate : (ofDate d h hyear).chars = Instant.dateChars d := by
  simp [chars, ofDate, Row.padded, Instant.dateChars, Instant.yearChars, hyear]

lemma date_ofDate : (ofDate d h hyear).date = d := by
  simp [date, ofDate, Int.toNat_of_nonneg hyear.1]

end DateText

/-- Within four digits of the year the text of an instant is a date, a clock time and the letter of
universal time, and what is written is the stamp of the instant. -/
lemma Instant.exists_stampText {t : Instant} (h : t.IsShown) (hyear : t.HasPlainYear) :
    ∃ s : StampText, s.chars ++ ['Z'] = t.serialChars ∧ s.stamp = Stamp.ofInstant t := by
  obtain ⟨hdate, hhour, hminute, hsecond, hnanos⟩ := Stamp.valid_ofInstant h hyear
  obtain ⟨places, fraction, hfraction, hvalue⟩ := exists_fraction hnanos
  have hplain : 0 ≤ (Stamp.ofInstant t).date.year ∧ (Stamp.ofInstant t).date.year ≤ 9999 := hyear
  refine ⟨⟨.ofDate (Stamp.ofInstant t).date hdate hplain, 'T', .inl rfl,
    .padded (Stamp.ofInstant t).hour (by decide) (by omega),
    .padded (Stamp.ofInstant t).minute (by decide) (by omega),
    .padded (Stamp.ofInstant t).second (by decide) (by omega), places, fraction⟩, ?_, ?_⟩
  · simp [StampText.chars, StampText.clockChars, DateText.chars_ofDate, Row.padded, serialChars,
      clockChars, hfraction]
  · simp [StampText.stamp, DateText.date_ofDate, hvalue]

/-! ### The letter of universal time -/

namespace Reader

variable {cs rest : List Char}

/-- A reader leaves the letter of universal time in a text. -/
def LeavesZulu {α : Type} (read : Step α) : Prop :=
  ∀ ⦃cs a rest⦄, read cs = some (a, rest) → 'Z' ∈ cs → 'Z' ∈ rest

lemma mem_digitsUpTo (h : 'Z' ∈ cs) (count : Nat) : 'Z' ∈ (digitsUpTo count cs).2 := by
  induction cs generalizing count with
  | nil => simp at h
  | cons c cs ih =>
      cases count with
      | zero => exact h
      | succ count =>
          rw [digitsUpTo]
          split
          next hdigit =>
            have hne : 'Z' ≠ c := by
              rintro rfl
              exact absurd hdigit (by decide)
            exact ih ((List.mem_cons.1 h).resolve_left hne) count
          next => exact h

lemma mem_skip (h : 'Z' ∈ cs) : 'Z' ∈ Blank.skip cs := by
  rw [Blank.skip]
  have hsplit := List.takeWhile_append_dropWhile (p := Blank.is) (l := cs)
  rw [← hsplit, List.mem_append] at h
  refine h.resolve_left fun htaken => ?_
  exact absurd (List.mem_takeWhile_imp htaken) (by decide)

lemma mem_literal {c : Char} (hc : c ≠ 'Z') (hread : literal c cs = some rest) (h : 'Z' ∈ cs) :
    'Z' ∈ rest := by
  cases cs with
  | nil => simp at h
  | cons d cs =>
      obtain ⟨rfl, hrest⟩ := Option.ite_none_right_eq_some.1 hread
      rw [← Option.some.inj hrest]
      exact (List.mem_cons.1 h).resolve_left hc.symm

lemma leavesZulu_atMost (count : Nat) : LeavesZulu (atMost count) := by
  intro cs n rest hread h
  have hrest := mem_digitsUpTo h count
  rw [atMost] at hread
  split at hread
  · cases hread
  next hdigits =>
    cases hread
    rwa [hdigits] at hrest

lemma leavesZulu_looseNumber : LeavesZulu looseNumber :=
  fun _ _ _ hread h => leavesZulu_atMost 2 hread (mem_skip h)

lemma leavesZulu_looseYear : LeavesZulu looseYear := by
  intro cs year rest hread h
  have hskip := mem_skip h
  have hnumber : ∀ {count : Nat} {cs : List Char} {f : Nat × List Char → Int × List Char},
      (atMost count cs).map f = some (year, rest) → (∀ p, (f p).2 = p.2) → 'Z' ∈ cs →
        'Z' ∈ rest := by
    intro count cs f hmap hf hmem
    obtain ⟨p, hatMost, hpair⟩ := Option.map_eq_some_iff.1 hmap
    have hrest : p.2 = rest := by rw [← hf p, hpair]
    rw [← hrest]
    exact leavesZulu_atMost count hatMost hmem
  rw [looseYear] at hread
  split at hread
  next hsigned =>
    rw [hsigned] at hskip
    exact hnumber hread (fun _ => rfl) ((List.mem_cons.1 hskip).resolve_left (by decide))
  next hsigned =>
    rw [hsigned] at hskip
    exact hnumber hread (fun _ => rfl) ((List.mem_cons.1 hskip).resolve_left (by decide))
  next => exact hnumber hread (fun _ => rfl) hskip

lemma leavesZulu_fraction : LeavesZulu fraction := by
  intro cs nanos rest hread h
  rw [fraction.eq_def] at hread
  split at hread
  next cs =>
    have hrest := mem_digitsUpTo ((List.mem_cons.1 h).resolve_left (by decide)) cs.length
    split at hread
    · cases hread
    next hdigits =>
      cases hread
      rwa [hdigits] at hrest
  next =>
    cases hread
    exact h

lemma leavesZulu_looseDate : LeavesZulu looseDate := by
  intro cs d rest hread h
  simp only [looseDate, Option.bind_eq_bind, Option.bind_eq_some_iff, Prod.exists] at hread
  obtain ⟨year, cs₁, hyear, cs₂, hfirst, month, cs₃, hmonth, cs₄, hsecond, day, cs₅, hday, hpure⟩ :=
    hread
  cases hpure
  have h₁ := leavesZulu_looseYear hyear h
  have h₂ := mem_literal (by decide) hfirst h₁
  have h₃ := leavesZulu_looseNumber hmonth h₂
  have h₄ := mem_literal (by decide) hsecond h₃
  exact leavesZulu_looseNumber hday h₄

/-- A loose clock time reaches to the end of the text, so the letter is not read over. -/
lemma looseClock_eq_none (d : Date) (h : 'Z' ∈ cs) : looseClock d cs = none := by
  rw [Option.eq_none_iff_forall_ne_some]
  intro t hread
  simp only [looseClock, Option.bind_eq_bind, Option.bind_eq_some_iff, Prod.exists] at hread
  obtain ⟨hour, cs₁, hhour, cs₂, hfirst, minute, cs₃, hminute, cs₄, hsecond, second, cs₅, hclock,
    nanos, cs₆, hfraction, hend⟩ := hread
  have h₁ := leavesZulu_looseNumber hhour h
  have h₂ := mem_literal (by decide) hfirst h₁
  have h₃ := leavesZulu_looseNumber hminute h₂
  have h₄ := mem_literal (by decide) hsecond h₃
  have h₅ := leavesZulu_looseNumber hclock h₄
  have h₆ := leavesZulu_fraction hfraction h₅
  obtain ⟨rfl, -⟩ := Option.ite_none_right_eq_some.1 hend
  cases h₆

lemma looseForm_eq_none {between : List Char → Option (List Char)}
    (hbetween : ∀ ⦃cs rest⦄, between cs = some rest → 'Z' ∈ cs → 'Z' ∈ rest) (h : 'Z' ∈ cs) :
    looseForm between cs = none := by
  rw [Option.eq_none_iff_forall_ne_some]
  intro t hread
  simp only [looseForm, Option.bind_eq_bind, Option.bind_eq_some_iff, Prod.exists] at hread
  obtain ⟨d, cs₁, hdate, cs₂, hmiddle, hclock⟩ := hread
  have hnone := looseClock_eq_none d (hbetween hmiddle (leavesZulu_looseDate hdate h))
  rw [hclock] at hnone
  cases hnone

lemma dateForm_eq_none (h : 'Z' ∈ cs) : dateForm cs = none := by
  rw [Option.eq_none_iff_forall_ne_some]
  intro t hread
  simp only [dateForm, Option.bind_eq_bind, Option.bind_eq_some_iff, Prod.exists] at hread
  obtain ⟨d, cs₁, hdate, hend⟩ := hread
  have hrest := leavesZulu_looseDate hdate h
  obtain ⟨rfl, -⟩ := Option.ite_none_right_eq_some.1 hend
  cases hrest

/-- So only the form with an offset reads a text with the letter in it. -/
lemma looseForms_eq_none (h : 'Z' ∈ cs) :
    ((looseForm (literal 'T') cs).orElse fun _ =>
      (looseForm (some ∘ Blank.skip) cs).orElse fun _ => dateForm cs) = none := by
  have hskip : ∀ ⦃cs rest⦄, (some ∘ Blank.skip) cs = some rest → 'Z' ∈ cs → 'Z' ∈ rest := by
    rintro cs rest ⟨⟩ hmem
    exact mem_skip hmem
  rw [looseForm_eq_none (fun _ _ => mem_literal (by decide)) h, looseForm_eq_none hskip h,
    dateForm_eq_none h]
  rfl

/-- The form with an offset starts with a digit of the year. -/
lemma offsetForm_eq_none {c : Char} (hc : c.isDigit = false) (cs : List Char) :
    offsetForm (c :: cs) = none := by
  have hyear : exactly 4 (c :: cs) = none := by simp [exactly, digitsUpTo, hc]
  rw [offsetForm, hyear]
  rfl

end Reader

/-! ### There and back -/

/-- Outside four digits the year has a sign, and no form reads the text. -/
lemma Instant.parse_eq_none {t : Instant} (hyear : ¬ t.HasPlainYear) :
    Reader.instant t.serialChars = none := by
  obtain ⟨sign, cs, hchars, hdigit, hblank⟩ : ∃ sign cs, t.serialChars = sign :: (cs ++ ['Z']) ∧
      sign.isDigit = false ∧ Blank.is sign = false := by
    have hsigned : yearChars (Stamp.ofInstant t).date.year = _ := if_neg hyear
    simp only [serialChars, dateChars, hsigned, List.cons_append]
    refine ⟨_, _, rfl, ?_, ?_⟩
    · split <;> decide
    · split <;> decide
  have hends : Blank.Ends ['Z'] := ⟨[], 'Z', rfl, by decide⟩
  have htrim : Blank.trim (sign :: (cs ++ ['Z'])) = sign :: (cs ++ ['Z']) :=
    Blank.trim_eq_self ⟨sign, _, rfl, hblank⟩ ((hends.append cs).cons sign)
  simp only [hchars, Reader.instant, htrim, offsetForm_eq_none hdigit,
    looseForms_eq_none (show 'Z' ∈ sign :: (cs ++ ['Z']) by simp)]
  rfl

/-- **Written instants come back.** An instant that a clock can show, also one in a leap second, is
read from its text as it was if its year has four digits. The text of an instant of another year is
not read at all. -/
theorem parse_serialise (t : Instant) :
    (t.IsShown → t.HasPlainYear → Instant.parse t.serialise = some t) ∧
      (¬ t.HasPlainYear → Instant.parse t.serialise = none) := by
  rw [Instant.parse, Instant.serialise, String.toList_ofList]
  refine ⟨fun hshown hyear => ?_, Instant.parse_eq_none⟩
  obtain ⟨s, hchars, hstamp⟩ := Instant.exists_stampText hshown hyear
  rw [← hchars, s.instant_zulu, ← s.stamp_instant?, hstamp, Stamp.instant?,
    if_pos (Stamp.valid_ofInstant hshown hyear), Stamp.instant_ofInstant hshown]

/-- A leap second at the end of the year 9999 comes back; the second behind it does not. -/
theorem parse_lastSecond :
    (⟨253402300799, 1000000001⟩ : Instant).IsShown ∧
      (⟨253402300799, 1000000001⟩ : Instant).HasPlainYear ∧
      Instant.parse (Instant.serialise ⟨253402300799, 1000000001⟩) =
        some ⟨253402300799, 1000000001⟩ ∧
      ¬ (⟨253402300800, 0⟩ : Instant).HasPlainYear ∧
      Instant.parse (Instant.serialise ⟨253402300800, 0⟩) = none := by
  have hshown : (⟨253402300799, 1000000001⟩ : Instant).IsShown := by decide
  have hyear : (⟨253402300799, 1000000001⟩ : Instant).HasPlainYear := by decide
  have hlater : ¬ (⟨253402300800, 0⟩ : Instant).HasPlainYear := by decide
  exact ⟨hshown, hyear, (parse_serialise _).1 hshown hyear, hlater, (parse_serialise _).2 hlater⟩

/-! ### What is read -/

namespace Reader

variable {cs rest : List Char} {t : Instant}

/-- Offsets are whole minutes. -/
lemma offset_mod {seconds : Int} (h : offset cs = some (seconds, rest)) : seconds % 60 = 0 := by
  rw [offset.eq_def] at h
  split at h
  · cases h
    rfl
  · cases h
    rfl
  · simp only [Option.bind_eq_bind] at h
    split_ifs at h <;>
      simp only [Option.bind_some, Option.bind_none, Option.bind_eq_some_iff, Prod.exists,
        Option.ite_none_right_eq_some, reduceCtorEq] at h
    all_goals
      obtain ⟨hours, cs₁, -, cs₂, -, minutes, cs₃, -, -, hpair⟩ := h
      cases hpair
      push_cast
      omega
  · cases h

/-- What is given, if anything, is an instant that a clock can show. -/
def Shows (read : Option Instant) : Prop := ∀ t, read = some t → t.IsShown

lemma Shows.bind {α : Type} {x : Option α} {f : α → Option Instant}
    (h : ∀ a, x = some a → Shows (f a)) : Shows (x >>= f) := by
  intro t hread
  obtain ⟨a, ha, hfa⟩ := Option.bind_eq_some_iff.1 hread
  exact h a ha t hfa

lemma Shows.ite {p : Prop} [Decidable p] {read : Option Instant} (h : Shows read) :
    Shows (if p then read else none) :=
  fun t hread => h t (Option.ite_none_right_eq_some.1 hread).2

lemma Shows.orElse {read : Option Instant} {next : Unit → Option Instant} (h : Shows read)
    (hnext : Shows (next ())) : Shows (read.orElse next) := by
  cases read with
  | none => exact hnext
  | some t => exact h

lemma shows_stamp (s : Stamp) : Shows s.instant? := by
  intro t hread
  obtain ⟨hvalid, ht⟩ := Option.ite_none_right_eq_some.1 hread
  obtain ⟨-, -, -, hsecond, hnanos⟩ := hvalid
  rw [← Option.some.inj ht]
  simp only [Instant.IsShown, Stamp.instant]
  simp only [nanosPerSecond, secondsPerDay] at hnanos ⊢
  split <;> omega

lemma shows_looseClock (d : Date) (cs : List Char) : Shows (looseClock d cs) := by
  rw [looseClock]
  exact .bind fun _ _ => .bind fun _ _ => .bind fun _ _ => .bind fun _ _ => .bind fun _ _ =>
    .bind fun _ _ => .ite (shows_stamp _)

lemma shows_looseForm (between : List Char → Option (List Char)) (cs : List Char) :
    Shows (looseForm between cs) := by
  rw [looseForm]
  exact .bind fun _ _ => .bind fun _ _ => shows_looseClock _ _

lemma shows_dateForm (cs : List Char) : Shows (dateForm cs) := by
  rw [dateForm]
  exact .bind fun _ _ => .ite (shows_stamp _)

/-- Moved by whole minutes, a leap second stays behind second 59. -/
lemma shows_offsetForm (cs : List Char) : Shows (offsetForm cs) := by
  rw [offsetForm]
  refine .bind fun _ _ => .bind fun _ _ => .bind fun _ _ => .bind fun _ _ => .bind fun _ _ =>
    .bind fun _ _ => .bind fun _ _ => .bind fun _ _ => .bind fun _ _ => .bind fun _ _ =>
    .bind fun _ _ => .bind fun _ _ => .bind fun _ hoffset => .ite ?_
  refine .bind fun t ht => ?_
  rintro _ ⟨⟩
  have hminutes := offset_mod hoffset
  have hshown := shows_stamp _ t ht
  simp only [Instant.IsShown, Instant.shift] at hshown ⊢
  omega

end Reader

/-- Whatever is read is an instant that a clock can show. -/
theorem Instant.isShown_of_parse {s : String} {t : Instant} (h : Instant.parse s = some t) :
    t.IsShown :=
  (shows_offsetForm _).orElse
    ((shows_looseForm _ _).orElse ((shows_looseForm _ _).orElse (shows_dateForm _))) t h

end BridgeAudit
