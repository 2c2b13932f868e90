import BridgeAudit.Proofs.Record.RoundTrip
import BridgeAudit.Proofs.Timeline.Intake

/-!
A timeline that is taken in again.

* `takenIn_toJson`: entries that are written out are taken in as they were.
* `ingest_set`: taking in a single collection.
* `merge_again`: a timeline that is written out, and taken in as any one collection, comes back.
-/

namespace BridgeAudit

/-! ### One collection -/

section Collection

variable {c : Collection} {vs : List Json} {rs : List Record} {es : List Entry}

/-- Entries that are written out are taken in as they were, and nothing is rejected. -/
lemma takenIn_toJson (c : Collection) (h : ∀ e ∈ es, e.record.date = .ok e.occurredAt) :
    TakenIn c (es.map fun e => e.record.toJson) (es.map (·.record)) es [] := by
  induction es with
  | nil => exact .nil
  | cons e es ih =>
      rw [List.forall_mem_cons] at h
      exact .shown e.record.parse_toJson h.1 (ih h.2)

/-- What a single collection is taken in as is all there is. -/
lemma ingest_set (h : TakenIn c vs rs es []) :
    (ingest (({} : Collections Json).set c vs)).entries = ({} : Collections Entry).set c es ∧
      (ingest (({} : Collections Json).set c vs)).rejected = [] := by
  have htaken : ∀ d, (ingest (({} : Collections Json).set c vs)).entries.get d =
        (({} : Collections Entry).set c es).get d ∧
      (ingest (({} : Collections Json).set c vs)).rejectedIn d = [] := by
    intro d
    have hd := takenIn_get (({} : Collections Json).set c vs) d
    rw [Collections.get_set] at hd ⊢
    by_cases hdc : d = c
    · subst hdc
      rw [if_pos rfl] at hd ⊢
      exact (hd.unique h).2
    · rw [if_neg hdc, Collections.get_empty] at hd ⊢
      exact (hd.unique .nil).2
  refine ⟨Collections.ext fun d => (htaken d).1, ?_⟩
  rw [rejected_eq_flatMap]
  exact List.flatMap_eq_nil_iff.mpr fun d _ => (htaken d).2

end Collection

/-! ### The timeline -/

/-- A sorted timeline as the only collection is merged to itself. -/
lemma Entry.Sorted.merge_set {es : List Entry} (h : Entry.Sorted es) (c : Collection) :
    merge (({} : Collections Entry).set c es) = es := by
  rw [merge, Collections.flatten_set_empty, h.sort_eq]

/-- **Taking a timeline in again.** The records on the timeline of a view, written out in their
order and served as any one collection, are all taken in, and merging them gives the same timeline
again. In particular merging what has been merged changes nothing. -/
theorem merge_again (policy : Policy) (cycle : Nat) (raw : Collections Json) (now : Instant)
    (c : Collection) :
    let timeline := (reconcile policy cycle raw now).view.timeline
    let again := mergeRaw (({} : Collections Json).set c (timeline.map fun e => e.record.toJson))
    again.rejected = [] ∧ again.entries = timeline ∧
      ∀ entries : Collections Entry,
        merge (({} : Collections Entry).set c (merge entries)) = merge entries := by
  intro timeline again
  have hsort : timeline = Entry.sort (served policy.token raw) :=
    timeline_eq_sort raw policy cycle now
  have hsorted : Entry.Sorted timeline := hsort ▸ Entry.sorted_sort _
  have hdates : ∀ e ∈ timeline, e.record.date = .ok e.occurredAt := fun e he =>
    date_of_mem_served policy.token raw ((Entry.sort_perm _).subset (hsort ▸ he))
  obtain ⟨hentries, hrejected⟩ := ingest_set (takenIn_toJson c hdates)
  refine ⟨hrejected, ?_, fun entries => (Entry.sorted_sort entries.flatten).merge_set c⟩
  calc again.entries
      = merge (({} : Collections Entry).set c timeline) := congrArg merge hentries
    _ = timeline := hsorted.merge_set c

/-- A withdrawal, and two burns and a deposit of the day after it, in the order in which they are
served. -/
def twoDayRecords : List Record :=
  [.unauditedWithdrawal ⟨none, "", 1, some "2023-02-25", "", "", none, 6, ""⟩,
    .unauditedBurn ⟨⟨none, 1, some "2023-02-26", 1, 5, ""⟩, []⟩,
    .unauditedBurn ⟨⟨none, 1, some "2023-02-26", 1, 4, ""⟩, []⟩,
    .unauditedDeposit ⟨⟨none, "", 1, some "2023-02-26", "", "", none, 7, ""⟩⟩]

/-- The withdrawal is served before the others, where mints are. -/
def twoDays : Collections Json where
  auditedMints := (twoDayRecords.take 1).map Record.toJson
  unauditedBurns := ((twoDayRecords.drop 1).take 2).map Record.toJson
  unauditedDeposits := (twoDayRecords.drop 3).map Record.toJson

/-- They come back in the order in which they are shown: the newer day first, and the records of
one day as they stood. -/
theorem twoDays_again :
    let timeline := (reconcile {} 1 twoDays ⟨0, 0⟩).view.timeline
    let again := mergeRaw { auditedBurns := timeline.map fun e => e.record.toJson }
    timeline.map (·.record) = twoDayRecords.rotate 1 ∧
      again.rejected = [] ∧ again.entries = timeline := by
  intro timeline again
  obtain ⟨hrejected, hentries, -⟩ := merge_again {} 1 twoDays ⟨0, 0⟩ .auditedBurns
  refine ⟨?_, hrejected, hentries⟩
  let days : List Instant := [⟨1677283200, 0⟩, ⟨1677369600, 0⟩, ⟨1677369600, 0⟩, ⟨1677369600, 0⟩]
  let entries := days.zipWith Entry.mk twoDayRecords
  have hserved : served ({} : Policy).token twoDays = entries := by decide +kernel
  have hsorted : Entry.Sorted (entries.rotate 1) := by
    rw [Entry.Sorted]
    decide
  have hties : ∀ t, Entry.ofInstant (entries.rotate 1) t = Entry.ofInstant entries t := by
    intro t
    -- only the withdrawal moves, and nothing else is of its day
    by_cases h : t = ⟨1677283200, 0⟩
    · subst h
      decide
    · have hw : (⟨1677283200, 0⟩ : Instant) ≠ t := Ne.symm h
      simp [Entry.ofInstant, entries, days, twoDayRecords, List.filter_cons, hw]
  have htimeline : timeline = entries.rotate 1 := by
    rw [← Entry.sort_eq_iff.mpr ⟨hsorted, hties⟩, ← hserved]
    exact timeline_eq_sort twoDays {} 1 ⟨0, 0⟩
  rw [htimeline]
  rfl

end BridgeAudit
