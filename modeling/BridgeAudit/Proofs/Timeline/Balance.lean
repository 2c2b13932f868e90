import BridgeAudit.Proofs.Timeline.Intake

/-!
How the counts of a view add up.

* `Ingested.shown`: the entries that go on the timeline.
* `isUndatedForeign`: a burn of another token that cannot be dated.
* `stats_balance`: what is fetched is rejected, dropped or shown, and burns of another token that
  cannot be dated are both rejected and dropped.
* `undated_foreign_burn_counts_twice`: such a burn alone puts the three counts out of balance.
-/

namespace BridgeAudit

/-- The entries that go on the timeline: where burns are served, none of another token. -/
def Ingested.shown (taken : Ingested) (token : UInt64) : Collections Entry :=
  { taken.entries with
    unauditedBurns := taken.entries.unauditedBurns.filter fun e => !e.record.isForeignBurn token }

/-- A raw record that decodes to a burn of another token without a usable date. -/
def isUndatedForeign (token : UInt64) (raw : Json) : Bool :=
  isForeign token raw && (Entry.read raw).isNone

variable (policy : Policy) (cycle : Nat) (raw : Collections Json) (now : Instant)

/-- What a filter leaves out makes up the rest. -/
lemma length_filter_not_add_countP {α : Type} (p : α → Bool) (l : List α) :
    (l.filter fun a => !p a).length + l.countP p = l.length := by
  have hall := List.length_eq_countP_add_countP p (l := l)
  simp only [Bool.not_eq_true, Bool.decide_eq_false] at hall
  rw [← List.countP_eq_length_filter, Nat.add_comm]
  exact hall.symm

/-! ### What is shown -/

lemma get_shown (taken : Ingested) (token : UInt64) (c : Collection) :
    (taken.shown token).get c =
      if c = .unauditedBurns then
        (taken.entries.get c).filter fun e => !e.record.isForeignBurn token
      else taken.entries.get c := by
  cases c <;> rfl

lemma timeline_perm : (reconcile policy cycle raw now).view.timeline.Perm
    ((ingest raw).shown policy.token).flatten :=
  Entry.sort_perm _

/-- Of the entries only burns of another token are not shown. -/
lemma size_shown_add (taken : Ingested) (token : UInt64) :
    (taken.shown token).size +
        (taken.entries.unauditedBurns.countP fun e => e.record.isForeignBurn token) =
      taken.entries.size := by
  have hburns := length_filter_not_add_countP (fun e : Entry => e.record.isForeignBurn token)
    taken.entries.unauditedBurns
  simp only [Collections.size_eq_sum, Collection.all, List.map_cons, List.map_nil, List.sum_cons,
    List.sum_nil, Collections.get, Ingested.shown]
  omega

/-! ### Burns of another token -/

/-- The dropped burns are counted among all records that decode, dated or not. -/
lemma filteredOut_eq : (reconcile policy cycle raw now).view.stats.filteredOut =
    raw.unauditedBurns.countP (isForeign policy.token) := by
  have hrecords : (ingest raw).records.unauditedBurns =
      raw.unauditedBurns.filterMap fun v => (Record.parse v).toOption :=
    (takenIn_get raw .unauditedBurns).records_eq
  have hkept : (retainToken policy.token (ingest raw).records.unauditedBurns).length +
      ((ingest raw).records.unauditedBurns.countP fun r => r.isForeignBurn policy.token) =
        (ingest raw).records.unauditedBurns.length :=
    length_filter_not_add_countP _ _
  have hforeign : ((ingest raw).records.unauditedBurns.countP
      fun r => r.isForeignBurn policy.token) =
        raw.unauditedBurns.countP (isForeign policy.token) := by
    rw [hrecords, List.countP_filterMap]
    refine List.countP_congr fun v _ => ?_
    rw [isForeign]
    cases h : Record.parse v with
    | error e => simp [Except.toOption]
    | ok r => cases r <;> simp [Except.toOption, Record.isForeignBurn]
  change (ingest raw).records.unauditedBurns.length -
    (retainToken policy.token (ingest raw).records.unauditedBurns).length = _
  omega

/-- A burn of another token has an entry, or else it cannot be dated. -/
lemma countP_foreign (token : UInt64) :
    raw.unauditedBurns.countP (isForeign token) =
      ((ingest raw).entries.unauditedBurns.countP fun e => e.record.isForeignBurn token) +
        raw.unauditedBurns.countP (isUndatedForeign token) := by
  have hentries : (ingest raw).entries.unauditedBurns = raw.unauditedBurns.filterMap Entry.read :=
    get_entries_ingest raw .unauditedBurns
  have hread : ((ingest raw).entries.unauditedBurns.countP fun e =>
      e.record.isForeignBurn token) =
        raw.unauditedBurns.countP fun v => isForeign token v && (Entry.read v).isSome := by
    rw [hentries, List.countP_filterMap]
    refine List.countP_congr fun v _ => ?_
    cases h : Entry.read v with
    | none => simp
    | some e => simp [Entry.isForeignBurn_of_read h]
  rw [hread, List.countP_eq_countP_filter_add raw.unauditedBurns (isForeign token)
    fun v => (Entry.read v).isSome, List.countP_filter, List.countP_filter]
  congr 1
  refine List.countP_congr fun v _ => ?_
  simp [isUndatedForeign]

/-! ### The counts -/

lemma countIn_cons (e : Entry) (timeline : List Entry) (c : Category) :
    Stats.countIn (e :: timeline) c =
      Stats.countIn timeline c + if e.category = c then 1 else 0 := by
  simp [Stats.countIn, List.countP_cons]

/-- The counts by shape add up to the length of the timeline. -/
lemma sum_countIn (timeline : List Entry) :
    (Category.all.map (Stats.countIn timeline)).sum = timeline.length := by
  induction timeline with
  | nil => rfl
  | cons e timeline ih =>
      have hone : (Category.all.map fun c => if e.category = c then 1 else 0).sum = 1 := by
        cases e.category <;> rfl
      rw [funext (countIn_cons e timeline), List.sum_map_add, hone, ih, List.length_cons]

/-- Rejections are counted among all raw records. -/
lemma length_rejected : (ingest raw).rejected.length =
    raw.flatten.countP fun v => (Entry.read v).isNone := by
  rw [rejected_eq_flatMap, List.length_flatMap, Collections.flatten, List.countP_flatMap]
  refine congrArg List.sum (List.map_congr_left fun c _ => ?_)
  rw [Function.comp_apply, List.countP_eq_length_filter, ← (takenIn_get raw c).raw_eq,
    List.length_map]

/-- **The balance of a cycle.** Every fetched record is rejected, dropped as a burn of another
token, or shown; just those burns of another token that cannot be dated are counted both as
rejected and as dropped. The counts are in balance if and only if there is none of these. What is
shown is the sum of the counts by shape. -/
theorem stats_balance (policy : Policy) (cycle : Nat) (raw : Collections Json) (now : Instant) :
    let view := (reconcile policy cycle raw now).view
    let stats := view.stats
    stats.fetched = raw.size ∧
      stats.rejected = (raw.flatten.countP fun v => (Entry.read v).isNone) ∧
      stats.filteredOut = raw.unauditedBurns.countP (isForeign policy.token) ∧
      stats.fetched + raw.unauditedBurns.countP (isUndatedForeign policy.token) =
        stats.rejected + stats.filteredOut + view.timeline.length ∧
      (stats.fetched = stats.rejected + stats.filteredOut + view.timeline.length ↔
        ∀ v ∈ raw.unauditedBurns, ¬isUndatedForeign policy.token v) ∧
      view.timeline.length = (Category.all.map stats.count).sum := by
  intro view stats
  have hfetched : stats.fetched = raw.size := rfl
  have hrejected : stats.rejected = (ingest raw).rejected.length := rfl
  have hbalance : stats.fetched + raw.unauditedBurns.countP (isUndatedForeign policy.token) =
      stats.rejected + stats.filteredOut + view.timeline.length := by
    have hlength : view.timeline.length = ((ingest raw).shown policy.token).size :=
      (timeline_perm policy cycle raw now).length_eq
    have hdropped : stats.filteredOut = _ :=
      (filteredOut_eq policy cycle raw now).trans (countP_foreign raw policy.token)
    have hshown := size_shown_add (ingest raw) policy.token
    have htaken := size_entries_add_rejected raw
    -- a dropped burn with a date is an entry that is not shown; one without a date is a rejection
    omega
  refine ⟨hfetched, hrejected.trans (length_rejected raw), filteredOut_eq policy cycle raw now,
    hbalance, ?_, (sum_countIn view.timeline).symm⟩
  rw [← List.countP_eq_zero]
  omega

/-- A burn as it is served, with the value of its date field. -/
def servedBurn (token amount : Nat) (date : Json) : Json :=
  .object [("burn", .object [("amount", .ofNat amount), ("block_index", .ofNat 1),
    ("block_timestamp", date), ("public_key_hex", .string ""), ("token_id", .ofNat token)])]

/-- One burn of another token without a date is one record, and yet it is rejected and dropped. -/
theorem undated_foreign_burn_counts_twice :
    let view := (reconcile {} 1 { unauditedBurns := [servedBurn 2 5 .null] } ⟨0, 0⟩).view
    view.stats.fetched ≠
      view.stats.rejected + view.stats.filteredOut + view.timeline.length := by
  decide +kernel

end BridgeAudit
