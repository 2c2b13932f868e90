import BridgeAudit.Proofs.Timeline.InFlight
import BridgeAudit.Proofs.Timeline.Stability

/-!
Records that are served in another order.

* `Collections.Reordered`: six lists, each with the same items in another order.
* `place`: the collection and the instant of an entry, which fix where it stands on the timeline.
* `map_place_placed`: each place of a timeline is the same in whatever order the records come.
* `reordering_moves_only_ties`: of a view only entries change places, within one instant and one
  collection.
-/

namespace BridgeAudit

/-! ### Another order -/

namespace Collections

variable {α β : Type} {cs ds : Collections α}

/-- Six lists, each with the same items in another order. -/
def Reordered (cs ds : Collections α) : Prop := ∀ c, (cs.get c).Perm (ds.get c)

lemma Reordered.labelled (h : cs.Reordered ds) : cs.labelled.Perm ds.labelled :=
  List.Perm.flatMap_left _ fun c _ => (h c).map _

lemma Reordered.size_eq (h : cs.Reordered ds) : cs.size = ds.size := by
  rw [size, size, ← map_snd_labelled, ← map_snd_labelled]
  exact (h.labelled.map _).length_eq

end Collections

open Collections (Reordered)

namespace Collection

/-- The position of a collection among all. -/
def position (c : Collection) : Nat := all.idxOf c

lemma position_injective {c d : Collection} (h : c.position = d.position) : c = d :=
  (List.idxOf_inj (mem_all c)).1 h

end Collection

/-! ### Places on the timeline -/

/-- Where an entry belongs on the timeline: its collection and its instant. -/
def place (x : Collection × Entry) : Collection × Instant := (x.1, x.2.occurredAt)

/-- Newer places come before older ones, and those of one instant by their collections. -/
def Precedes (p q : Collection × Instant) : Prop :=
  q.2 ≤ p.2 ∧ (p.2 ≤ q.2 → p.1.position ≤ q.1.position)

section Places

variable {entries entries' : Collections Entry}

/-- All items come by the positions of their collections. -/
lemma labelled_pairwise {α : Type} (cs : Collections α) :
    cs.labelled.Pairwise fun x y => x.1.position ≤ y.1.position := by
  have hall : Collection.all.Pairwise fun c d => c.position ≤ d.position := by decide
  rw [Collections.labelled, List.pairwise_flatMap]
  refine ⟨fun c _ => ?_, hall.imp fun hcd x hx y hy => ?_⟩
  · rw [List.pairwise_map]
    exact List.pairwise_of_forall fun _ _ => le_rfl
  · obtain ⟨_, -, rfl⟩ := List.mem_map.1 hx
    obtain ⟨_, -, rfl⟩ := List.mem_map.1 hy
    exact hcd

lemma placed_pairwise (entries : Collections Entry) :
    ((placed entries).map place).Pairwise Precedes := by
  rw [List.pairwise_map]
  exact pairwise_mergeSort_of_pairwise notOlder_trans_snd notOlder_total_snd
    (labelled_pairwise entries)

lemma placed_perm_of_reordered (h : entries.Reordered entries') :
    (placed entries).Perm (placed entries') :=
  (placed_perm entries).trans (h.labelled.trans (placed_perm entries').symm)

/-- Each place of a timeline is the same in whatever order the entries are served. -/
lemma map_place_placed (h : entries.Reordered entries') :
    (placed entries).map place = (placed entries').map place := by
  refine ((placed_perm_of_reordered h).map place).eq_of_pairwise ?_ (placed_pairwise entries)
    (placed_pairwise entries')
  intro p q _ _ hpq hqp
  have hinstant : p.2 = q.2 := le_antisymm hqp.1 hpq.1
  have hposition := le_antisymm (hpq.2 hinstant.le) (hqp.2 hinstant.ge)
  exact Prod.ext (Collection.position_injective hposition) hinstant

end Places

/-! ### Records in another order -/

section Ingest

variable {raw raw' : Collections Json} (h : raw.Reordered raw')

include h

lemma reordered_records : (ingest raw).records.Reordered (ingest raw').records := by
  intro c
  rw [(takenIn_get raw c).records_eq, (takenIn_get raw' c).records_eq]
  exact (h c).filterMap _

lemma reordered_shown (token : UInt64) :
    ((ingest raw).shown token).Reordered ((ingest raw').shown token) := by
  intro c
  have hentries : ((ingest raw).entries.get c).Perm ((ingest raw').entries.get c) := by
    rw [get_entries_ingest, get_entries_ingest]
    exact (h c).filterMap _
  rw [get_shown, get_shown]
  split
  · exact hentries.filter _
  · exact hentries

lemma rejected_perm : (ingest raw).rejected.Perm (ingest raw').rejected := by
  rw [rejected_eq_flatMap, rejected_eq_flatMap]
  refine List.Perm.flatMap_left _ fun c _ => ?_
  rw [rejectedIn_ingest, rejectedIn_ingest]
  exact ((h c).map _).filterMap _

end Ingest

/-- The totals do not depend on the order of the records. -/
lemma totals_of_reordered {records records' : Collections Record} (h : records.Reordered records')
    (token : UInt64) : Totals.of token records = Totals.of token records' := by
  have hdeposits : records.unauditedDeposits.Perm records'.unauditedDeposits := h .unauditedDeposits
  have hburns : records.unauditedBurns.Perm records'.unauditedBurns := h .unauditedBurns
  simp only [Totals.of, mintSum_eq, unwrapSum_eq, amountIn_perm hdeposits,
    amountIn_perm (hburns.filter _)]

/-- The totals of a view are those of all its records. -/
lemma totals_reconcile (policy : Policy) (cycle : Nat) (raw : Collections Json) (now : Instant) :
    (reconcile policy cycle raw now).view.totals = Totals.of policy.token (ingest raw).records := by
  simp only [reconcile, Totals.of, unwrapSum_retainToken]

/-- The counts do not depend on the order of the timeline. -/
lemma Stats.of_perm {timeline timeline' : List Entry} (h : timeline.Perm timeline')
    (fetched rejected filteredOut : Nat) (now : Instant) (threshold : Int) :
    Stats.of fetched rejected filteredOut timeline now threshold =
      Stats.of fetched rejected filteredOut timeline' now threshold := by
  have hcount : countIn timeline = countIn timeline' := funext fun c => h.countP_eq _
  rw [Stats.of, Stats.of, hcount, h.countP_eq]

/-- The counts of a view, by the raw records and the timeline. -/
lemma stats_reconcile (policy : Policy) (cycle : Nat) (raw : Collections Json) (now : Instant) :
    (reconcile policy cycle raw now).view.stats =
      Stats.of raw.size (ingest raw).rejected.length
        (raw.unauditedBurns.countP (isForeign policy.token))
        (reconcile policy cycle raw now).view.timeline now policy.overdueAfter := by
  rw [← filteredOut_eq policy cycle raw now]
  rfl

/-- **The order in which records are served matters for ties only.** If the records of each
collection are served in another order, the totals and the counts of a view are the same, and so are
the rejections, up to their order. The timeline has the same instants in the same order. Taken with
the collection of each entry, the two timelines have entries of the same collection and the same
instant in the same places, and all in all the same entries. So entries have changed places only
with others of their instant that come in their collection. -/
theorem reordering_moves_only_ties (policy : Policy) (cycle : Nat) (now : Instant)
    {raw raw' : Collections Json} (h : raw.Reordered raw') :
    let made := reconcile policy cycle raw now
    let made' := reconcile policy cycle raw' now
    let places := placed ((ingest raw).shown policy.token)
    let places' := placed ((ingest raw').shown policy.token)
    made.view.totals = made'.view.totals ∧ made.view.stats = made'.view.stats ∧
      made.rejected.Perm made'.rejected ∧
      made.view.timeline.map (·.occurredAt) = made'.view.timeline.map (·.occurredAt) ∧
      made.view.timeline = places.map (·.2) ∧ made'.view.timeline = places'.map (·.2) ∧
      places.map place = places'.map place ∧ places.Perm places' := by
  intro made made' places places'
  have hshown := reordered_shown h policy.token
  have hperm : places.Perm places' := placed_perm_of_reordered hshown
  have hplaces : places.map place = places'.map place := map_place_placed hshown
  have htimeline : made.view.timeline = places.map (·.2) := (map_snd_placed _).symm
  have htimeline' : made'.view.timeline = places'.map (·.2) := (map_snd_placed _).symm
  have htimelines : made.view.timeline.Perm made'.view.timeline := by
    rw [htimeline, htimeline']
    exact hperm.map _
  have hinstants : ∀ xs : List (Collection × Entry),
      (xs.map (·.2)).map (·.occurredAt) = (xs.map place).map (·.2) := fun xs => by
    rw [List.map_map, List.map_map]
    rfl
  refine ⟨?_, ?_, rejected_perm h, ?_, htimeline, htimeline', hplaces, hperm⟩
  · rw [totals_reconcile, totals_reconcile]
    exact totals_of_reordered (reordered_records h) policy.token
  · have hforeign := (h .unauditedBurns).countP_eq (isForeign policy.token)
    rw [stats_reconcile, stats_reconcile, h.size_eq, (rejected_perm h).length_eq]
    exact (congrArg (Stats.of _ _ · _ _ _) hforeign).trans (Stats.of_perm htimelines _ _ _ _ _)
  · rw [htimeline, htimeline', hinstants, hinstants, hplaces]

/-- Two burns of one day, a newer one, and a deposit of the former day. -/
def tiedRecords : Collections Json where
  unauditedBurns := [servedBurn 1 5 (.string "2023-02-26"), servedBurn 1 4 (.string "2023-02-26"),
    servedBurn 1 3 (.string "2023-02-27")]
  unauditedDeposits := [servedDeposit 7 (.string "2023-02-26"), .null]

/-- The same records in another order. -/
def tiedRecordsReordered : Collections Json where
  unauditedBurns := [servedBurn 1 3 (.string "2023-02-27"), servedBurn 1 4 (.string "2023-02-26"),
    servedBurn 1 5 (.string "2023-02-26")]
  unauditedDeposits := [.null, servedDeposit 7 (.string "2023-02-26")]

/-- The two burns of one day change places, in front of the deposit of that day. -/
theorem tiedRecords_reordered :
    tiedRecords.Reordered tiedRecordsReordered ∧
      let view := (reconcile {} 1 tiedRecords ⟨0, 0⟩).view
      let view' := (reconcile {} 1 tiedRecordsReordered ⟨0, 0⟩).view
      let day : Instant := ⟨1677369600, 0⟩
      view.timeline.map (·.occurredAt) = view'.timeline.map (·.occurredAt) ∧
        view.totals = view'.totals ∧ view.stats = view'.stats ∧
        (Entry.ofInstant view.timeline day).map (·.record.amount) = [5, 4, 7] ∧
        (Entry.ofInstant view'.timeline day).map (·.record.amount) = [4, 5, 7] := by
  have hreordered : tiedRecords.Reordered tiedRecordsReordered := by
    intro c
    cases c with
    | unauditedBurns => exact (List.reverse_perm _).symm
    | unauditedDeposits => exact List.Perm.swap _ _ _
    | _ => exact List.Perm.refl _
  obtain ⟨htotals, hstats, -, hinstants, -⟩ :=
    reordering_moves_only_ties {} 1 ⟨0, 0⟩ hreordered
  refine ⟨hreordered, hinstants, htotals, hstats, ?_, ?_⟩
  · rw [timeline_eq_sort, Entry.ofInstant_sort]
    decide
  · rw [timeline_eq_sort, Entry.ofInstant_sort]
    decide

end BridgeAudit
