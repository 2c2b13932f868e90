import BridgeAudit.Proofs.Calendar.Serial
import BridgeAudit.Proofs.Timeline.Foreign

/-!
Burns that have become overdue.

* `Instant.SlipsBetween`, `Instant.elapsed_lt_iff`: the time from an instant until now gets shorter
  in just one case, at a midnight after a leap second.
* `Entry.LapsesBetween`, `Entry.persists_iff`: a burn stays overdue unless it is such a case.
* `overdue_persists`: what becomes of the overdue burns as time goes by and as the threshold grows.
* `overdue_lapses_at_midnight`: a burn that is overdue before midnight, but not at midnight.
-/

namespace BridgeAudit

/-! ### Time that goes by -/

namespace Instant

variable {start now now' : Instant}

/-- An instant outside of leap seconds. -/
def IsPlain (t : Instant) : Prop := t.nanos < nanosPerSecond

instance (t : Instant) : Decidable t.IsPlain := by unfold IsPlain; infer_instance

/-- The first second of a day follows a last second that was further on in its fraction. The leap
second that the start lies in counts for the clock times behind it, and so it does not count for
those of the new day. -/
def SlipsBetween (start now now' : Instant) : Prop :=
  nanosPerSecond ≤ start.nanos ∧ start.seconds % secondsPerDay < secondsPerDay - 1 ∧
    now.seconds % secondsPerDay = secondsPerDay - 1 ∧ now'.seconds = now.seconds + 1 ∧
    now'.nanos < now.nanos

instance (start now now' : Instant) : Decidable (start.SlipsBetween now now') := by
  unfold SlipsBetween
  infer_instance

/-- Outside of leap seconds one is counted just if the start lies in it and its clock time has
passed. -/
lemma leapBetween_eq (start : Instant) (hnow : now.IsPlain) : start.leapBetween now =
    if nanosPerSecond ≤ start.nanos ∧ start.seconds % secondsPerDay < now.seconds % secondsPerDay
      then 1 else 0 := by
  rw [IsPlain] at hnow
  simp only [leapBetween]
  split_ifs <;> omega

/-- The time from an instant until now gets shorter only where it slips. -/
lemma elapsed_lt_iff (start : Instant) (hnow : now.IsPlain) (hnow' : now'.IsPlain)
    (hle : now ≤ now') : start.elapsed now' < start.elapsed now ↔ start.SlipsBetween now now' := by
  rw [elapsed, elapsed, leapBetween_eq start hnow, leapBetween_eq start hnow', SlipsBetween]
  rw [le_iff] at hle
  simp only [IsPlain, nanosPerSecond, secondsPerDay] at *
  split_ifs <;> omega

/-- No time has passed before the start. -/
lemma le_of_elapsed_pos (hnow : now.IsPlain) (h : 0 < start.elapsed now) : start ≤ now := by
  rw [elapsed, leapBetween_eq start hnow] at h
  rw [le_iff]
  simp only [IsPlain, nanosPerSecond, secondsPerDay] at *
  split_ifs at h <;> omega

/-- Where the time slips some of it is left to be lost. -/
lemma SlipsBetween.one_lt_elapsed (h : start.SlipsBetween now now') (hstart : start.IsShown)
    (hnow : now.IsPlain) (hle : start ≤ now) : 1 < start.elapsed now := by
  rw [elapsed, leapBetween_eq start hnow]
  rw [le_iff] at hle
  simp only [SlipsBetween, IsShown, IsPlain, nanosPerSecond, secondsPerDay] at *
  split_ifs <;> omega

end Instant

/-! ### One burn -/

namespace Entry

variable {e : Entry} {now now' : Instant} {wait wait' : Int}

lemma isOverdue_iff : e.isOverdue now wait ↔
    e.category = .unauditedBurn ∧ wait < e.occurredAt.elapsed now := by
  simp [isOverdue]

/-- A burn is overdue at the end of a day and is not at the start of the next. -/
def LapsesBetween (now now' : Instant) (e : Entry) : Prop :=
  e.category = .unauditedBurn ∧ e.occurredAt ≤ now ∧ e.occurredAt.SlipsBetween now now'

instance (now now' : Instant) (e : Entry) : Decidable (e.LapsesBetween now now') := by
  unfold LapsesBetween
  infer_instance

lemma isOverdue_of_le (hle : wait ≤ wait') (h : e.isOverdue now wait') : e.isOverdue now wait := by
  rw [isOverdue_iff] at *
  exact ⟨h.1, hle.trans_lt h.2⟩

/-- A burn that is overdue is so at any later instant, unless it lapses. -/
lemma isOverdue_or_lapses (hnow : now.IsPlain) (hnow' : now'.IsPlain) (hle : now ≤ now')
    (hwait : 0 < wait) (h : e.isOverdue now wait) :
    e.isOverdue now' wait ∨ e.LapsesBetween now now' := by
  rw [isOverdue_iff] at *
  obtain ⟨hburn, hwaited⟩ := h
  by_cases hslips : e.occurredAt.SlipsBetween now now'
  · exact .inr ⟨hburn, Instant.le_of_elapsed_pos hnow (hwait.trans hwaited), hslips⟩
  · have hmore := mt (Instant.elapsed_lt_iff e.occurredAt hnow hnow' hle).1 hslips
    exact .inl ⟨hburn, hwaited.trans_le (not_lt.1 hmore)⟩

/-- Overdue burns stay overdue if and only if they do not lapse, which some threshold shows. -/
lemma persists_iff (hshown : e.occurredAt.IsShown) (hnow : now.IsPlain) (hnow' : now'.IsPlain)
    (hle : now ≤ now') :
    (∀ wait > 0, e.isOverdue now wait → e.isOverdue now' wait) ↔ ¬e.LapsesBetween now now' := by
  constructor
  · rintro hall ⟨hburn, hstart, hslips⟩
    have hless := (Instant.elapsed_lt_iff e.occurredAt hnow hnow' hle).2 hslips
    have hpos := hslips.one_lt_elapsed hshown hnow hstart
    -- the threshold that is only just exceeded
    have hwaited := hall (e.occurredAt.elapsed now - 1) (by omega)
      (isOverdue_iff.2 ⟨hburn, by omega⟩)
    have hless' := (isOverdue_iff.1 hwaited).2
    omega
  · intro hlapses wait hwait hwaited
    exact (isOverdue_or_lapses hnow hnow' hle hwait hwaited).resolve_right hlapses

/-- The instants of all entries are such that a clock can show them. -/
lemma isShown_of_mem_ingest {raw : Collections Json} {c : Collection}
    (h : e ∈ (ingest raw).entries.get c) : e.occurredAt.IsShown := by
  rw [(takenIn_get raw c).entries_eq, List.mem_filterMap] at h
  obtain ⟨r, -, hentry⟩ := h
  simp only [ofRecord, Record.date] at hentry
  split at hentry
  · cases hentry
  · split at hentry
    next hparse =>
      obtain rfl := Option.some.inj hentry
      exact Instant.isShown_of_parse hparse
    · cases hentry

end Entry

/-! ### All burns -/

/-- Where one of two things holds in place of a third, that is counted no more often than both. -/
lemma countP_le_add {α : Type} {p q r : α → Bool} (l : List α) (h : ∀ a, p a → q a ∨ r a) :
    l.countP p ≤ l.countP q + l.countP r := by
  rw [List.countP_eq_countP_filter_add l p r, List.countP_filter, List.countP_filter, Nat.add_comm]
  refine Nat.add_le_add ?_ ?_
  · refine List.countP_mono_left fun a _ hpr => ?_
    rw [Bool.and_eq_true, Bool.not_eq_true'] at hpr
    exact (h a hpr.1).resolve_right (by simp [hpr.2])
  · exact List.countP_mono_left fun a _ hpr => (Bool.and_eq_true_iff.1 hpr).2

/-- **Once overdue, overdue but for some midnights.** Let two instants outside of leap seconds
follow each other. An entry, however its date was written, that is overdue at the first is so at
the second, under every threshold, if and only if it is no burn that lapses between them. What is
overdue under a threshold is so under any lower one. So the number of overdue burns goes down by no
more than the burns that lapse, it does not grow with the threshold, and it is at most the number
of burns without a withdrawal. -/
theorem overdue_persists {now now' : Instant} (hnow : now.IsPlain) (hnow' : now'.IsPlain)
    (hle : now ≤ now') :
    (∀ (raw : Collections Json) (c : Collection), ∀ e ∈ (ingest raw).entries.get c,
      ((∀ wait > 0, e.isOverdue now wait → e.isOverdue now' wait) ↔ ¬e.LapsesBetween now now')) ∧
    (∀ (e : Entry) (wait wait' : Int), wait ≤ wait' → e.isOverdue now wait' →
      e.isOverdue now wait) ∧
    ∀ (fetched rejected filteredOut : Nat) (timeline : List Entry),
      let stats := Stats.of fetched rejected filteredOut timeline
      (∀ threshold > 0, (stats now threshold).overdueBurns ≤ (stats now' threshold).overdueBurns +
        timeline.countP fun e => e.LapsesBetween now now') ∧
      (∀ threshold threshold', threshold ≤ threshold' →
        (stats now threshold').overdueBurns ≤ (stats now threshold).overdueBurns) ∧
      ∀ threshold, (stats now threshold).overdueBurns ≤
        (stats now threshold).count .unauditedBurn := by
  refine ⟨fun raw c e he => Entry.persists_iff (Entry.isShown_of_mem_ingest he) hnow hnow' hle,
    fun e wait wait' => Entry.isOverdue_of_le,
    fun fetched rejected filteredOut timeline => ⟨fun threshold hthreshold => ?_,
      fun threshold threshold' hlower => ?_, fun threshold => ?_⟩⟩
  · refine countP_le_add timeline fun e hoverdue => ?_
    rw [decide_eq_true_eq]
    exact Entry.isOverdue_or_lapses hnow hnow' hle hthreshold hoverdue
  · exact List.countP_mono_left fun e _ hoverdue => Entry.isOverdue_of_le hlower hoverdue
  · exact List.countP_mono_left fun e _ hoverdue =>
      decide_eq_true (Entry.category_of_isOverdue hoverdue)

/-- A burn in a leap second at noon. -/
def noonBurn : Collections Json :=
  { unauditedBurns := [servedBurn 1 5 (.string "2023-02-26T12:00:60.5Z")] }

/-- That burn as an entry. -/
def noonEntry : Entry where
  occurredAt := ⟨1677412859, 1500000000⟩
  record := .unauditedBurn ⟨⟨none, 1, some "2023-02-26T12:00:60.5Z", 1, 5, ""⟩, []⟩

/-- From midnight on the burn persists, whatever the threshold. -/
theorem noonEntry_persists :
    (⟨1677456000, 0⟩ : Instant).IsPlain ∧ (⟨1677456000, 1⟩ : Instant).IsPlain ∧
      (⟨1677456000, 0⟩ : Instant) ≤ ⟨1677456000, 1⟩ ∧
      noonEntry ∈ (ingest noonBurn).entries.get .unauditedBurns ∧
      ¬noonEntry.LapsesBetween ⟨1677456000, 0⟩ ⟨1677456000, 1⟩ ∧
      ∀ wait > 0, noonEntry.isOverdue ⟨1677456000, 0⟩ wait →
        noonEntry.isOverdue ⟨1677456000, 1⟩ wait := by
  have hnow : (⟨1677456000, 0⟩ : Instant).IsPlain := by decide
  have hnow' : (⟨1677456000, 1⟩ : Instant).IsPlain := by decide
  have hle : (⟨1677456000, 0⟩ : Instant) ≤ ⟨1677456000, 1⟩ := by decide
  have hmem : noonEntry ∈ (ingest noonBurn).entries.get .unauditedBurns := by decide +kernel
  have hlapses : ¬noonEntry.LapsesBetween ⟨1677456000, 0⟩ ⟨1677456000, 1⟩ := by decide
  obtain ⟨hpersists, -⟩ := overdue_persists hnow hnow' hle
  exact ⟨hnow, hnow', hle, hmem, hlapses, (hpersists noonBurn _ _ hmem).2 hlapses⟩

/-- A burn that has waited for more than 43140 seconds just before midnight is overdue, and at
midnight it is not. -/
theorem overdue_lapses_at_midnight :
    let overdueAt (now : Instant) :=
      (reconcile { overdueAfter := 43140000000000 } 1 noonBurn now).view.stats.overdueBurns
    (⟨1677455999, 900000000⟩ : Instant) ≤ ⟨1677456000, 0⟩ ∧
      overdueAt ⟨1677455999, 900000000⟩ = 1 ∧ overdueAt ⟨1677456000, 0⟩ = 0 := by
  decide +kernel

end BridgeAudit
