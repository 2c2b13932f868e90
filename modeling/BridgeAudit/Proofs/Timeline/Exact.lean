import BridgeAudit.Cycle.View
import BridgeAudit.Proofs.Timeline.Sorting

/-!
What is on the timeline of a view.

* `Entry.read`: the entry of a raw record, if the record decodes and can be dated.
* `isForeign`: a raw record that decodes to a burn of another token.
* `served`: all entries in the order in which the auditor serves the collections.
* `timeline_exact`: the timeline of a view is the stably sorted list of these.
-/

namespace BridgeAudit

/-- The entry of a raw record. -/
def Entry.read (raw : Json) : Option Entry :=
  match Record.parse raw with
  | .error _ => none
  | .ok r =>
      match r.date with
      | .error _ => none
      | .ok t => some ⟨t, r⟩

/-- A raw record that decodes to a burn without a withdrawal, of another token. -/
def isForeign (token : UInt64) (raw : Json) : Bool :=
  match Record.parse raw with
  | .ok (.unauditedBurn r) => r.burn.tokenId ≠ token
  | _ => false

/-- Everything that belongs on the timeline, as it is served: among the burns without a
withdrawal, none of another token. -/
def served (token : UInt64) (raw : Collections Json) : List Entry :=
  (raw.auditedMints ++ raw.auditedBurns ++ raw.unauditedMints ++
    raw.unauditedBurns.filter (fun v => !isForeign token v) ++ raw.unauditedDeposits ++
    raw.unauditedWithdrawals).filterMap Entry.read

/-! ### One record -/

lemma Reading.asEntry_of (raw : Json) : (Reading.of raw).asEntry = Entry.read raw := by
  rw [Reading.of, Entry.read]
  cases Record.parse raw with
  | error e => rfl
  | ok r =>
      simp only [Entry.ofRecord]
      cases r.date <;> rfl

/-- An entry that is read bears the record and its date. -/
lemma Entry.read_eq_some {raw : Json} {e : Entry} : Entry.read raw = some e ↔
    Record.parse raw = .ok e.record ∧ e.record.date = .ok e.occurredAt := by
  constructor
  · intro h
    rw [Entry.read] at h
    split at h
    · simp at h
    next r hr =>
      split at h
      · simp at h
      next t ht =>
        obtain rfl := Option.some.inj h
        exact ⟨hr, ht⟩
  · rintro ⟨hr, ht⟩
    simp only [Entry.read, hr, ht]

/-- The entry of a burn of another token is known by its raw record. -/
lemma Entry.isForeignBurn_of_read {raw : Json} {e : Entry} (h : Entry.read raw = some e)
    (token : UInt64) : e.record.isForeignBurn token = isForeign token raw := by
  rw [isForeign, (Entry.read_eq_some.mp h).1]
  cases e.record <;> rfl

/-! ### One collection -/

variable (token : UInt64) (raw : Collections Json)

lemma get_entries_ingest (c : Collection) :
    (ingest raw).entries.get c = (raw.get c).filterMap Entry.read := by
  simp [ingest, List.filterMap_map, Reading.asEntry_of]

/-- Burns of another token may be told apart before or after they are read. -/
lemma filter_filterMap_read (p : Bool → Bool) (vs : List Json) :
    (vs.filterMap Entry.read).filter (fun e => p (e.record.isForeignBurn token)) =
      (vs.filter fun v => p (isForeign token v)).filterMap Entry.read := by
  rw [List.filter_filterMap, List.filterMap_filter]
  refine List.filterMap_congr fun v _ => ?_
  cases h : Entry.read v with
  | none => simp
  | some e => simp [Option.filter, Entry.isForeignBurn_of_read h]

/-! ### The timeline -/

/-- A view shows what is served, the newest first. -/
lemma timeline_eq_sort (policy : Policy) (cycle : Nat) (now : Instant) :
    (reconcile policy cycle raw now).view.timeline = Entry.sort (served policy.token raw) := by
  have hentries :
      (ingest raw).entries = Collections.ofFn fun c => (raw.get c).filterMap Entry.read :=
    Collections.ext fun c => by rw [get_entries_ingest, Collections.get_ofFn]
  simp only [reconcile, merge, hentries]
  congr 1
  simp [Collections.flatten, Collection.all, Collections.ofFn, Collections.get, served,
    List.filterMap_append, filter_filterMap_read _ (!·)]

lemma date_of_mem_served {e : Entry} (h : e ∈ served token raw) :
    e.record.date = .ok e.occurredAt := by
  obtain ⟨v, -, hv⟩ := List.mem_filterMap.mp h
  exact (Entry.read_eq_some.mp hv).2

/-- **Exact timeline.** The timeline of a view holds just what is served, every record as often as
it is served; it has the newest entries first and those of one instant in the order in which they
are served, and it is the only list of that kind. Each entry bears the date of its record. -/
theorem timeline_exact (policy : Policy) (cycle : Nat) (raw : Collections Json) (now : Instant) :
    let timeline := (reconcile policy cycle raw now).view.timeline
    let entries := served policy.token raw
    timeline.Perm entries ∧
      timeline.Pairwise (fun a b => b.occurredAt ≤ a.occurredAt) ∧
      (∀ t, timeline.filter (fun e => e.occurredAt = t) =
        entries.filter fun e => e.occurredAt = t) ∧
      (∀ other : List Entry, other.Pairwise (fun a b => b.occurredAt ≤ a.occurredAt) →
        (∀ t, other.filter (fun e => e.occurredAt = t) =
          entries.filter fun e => e.occurredAt = t) → other = timeline) ∧
      ∀ e ∈ timeline, e.record.date = .ok e.occurredAt := by
  intro timeline entries
  have hsort : timeline = Entry.sort entries := timeline_eq_sort raw policy cycle now
  rw [hsort]
  refine ⟨Entry.sort_perm entries, Entry.sorted_sort entries, Entry.ofInstant_sort entries,
    fun other hsorted hother => (Entry.sort_eq_iff.mpr ⟨hsorted, hother⟩).symm, fun e he => ?_⟩
  exact date_of_mem_served policy.token raw ((Entry.sort_perm entries).subset he)

end BridgeAudit
