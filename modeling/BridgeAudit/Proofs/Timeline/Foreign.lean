import BridgeAudit.Proofs.Timeline.Balance

/-!
Burns of another token on the timeline.

Burns of another token are dropped from the collection in which burns are served. A record has the
shape of a burn by its fields alone, and such a record may come in any collection.

* `strays`: the burns of another token that come in other collections.
* `foreign_burns_shown`: just the strays are burns of another token on the timeline, and they are
  counted like any other burn.
* `stray_burn_is_shown`: a burn of another token among the deposits is on the timeline.
-/

namespace BridgeAudit

/-- The entries of the burns of another token that do not come where burns are served. -/
def strays (token : UInt64) (raw : Collections Json) : List Entry :=
  (((Collection.all.filter (· ≠ .unauditedBurns)).flatMap raw.get).filter
    (isForeign token)).filterMap Entry.read

/-- A burn of the token without a withdrawal. -/
def Entry.isOwnBurn (token : UInt64) (e : Entry) : Bool :=
  e.category = .unauditedBurn ∧ e.record.tokenId = some token

/-! ### One entry -/

namespace Entry

variable {token : UInt64} {e : Entry}

/-- A burn without a withdrawal is of another token, unless it is of the given one. -/
lemma isOwnBurn_iff : e.isOwnBurn token ↔
    e.category = .unauditedBurn ∧ ¬e.record.isForeignBurn token := by
  obtain ⟨t, r⟩ := e
  cases r <;> simp [isOwnBurn, category, Record.category, Record.isForeignBurn, Record.tokenId]

lemma category_of_isForeignBurn (h : e.record.isForeignBurn token) :
    e.category = .unauditedBurn := by
  obtain ⟨t, r⟩ := e
  cases r <;> simp_all [category, Record.category, Record.isForeignBurn]

lemma category_of_isOverdue {now : Instant} {threshold : Int} (h : e.isOverdue now threshold) :
    e.category = .unauditedBurn := by
  rw [isOverdue, Bool.and_eq_true, decide_eq_true_eq] at h
  exact h.1

end Entry

/-! ### The timeline -/

variable (policy : Policy) (cycle : Nat) (raw : Collections Json) (now : Instant)

/-- Burns of another token are shown unless they come where burns are served. -/
lemma filter_shown (token : UInt64) :
    (((ingest raw).shown token).flatten.filter fun e => e.record.isForeignBurn token) =
      strays token raw := by
  have hburns : (((ingest raw).shown token).get .unauditedBurns).filter
      (fun e => e.record.isForeignBurn token) = [] := by
    rw [get_shown, if_pos rfl, List.filter_filter]
    simp
  have hothers : ∀ c, c ≠ .unauditedBurns → (((ingest raw).shown token).get c).filter
      (fun e => e.record.isForeignBurn token) =
        ((raw.get c).filter (isForeign token)).filterMap Entry.read := fun c hc => by
    rw [get_shown, if_neg hc, get_entries_ingest]
    exact filter_filterMap_read token id (raw.get c)
  simp [strays, Collections.flatten, Collection.all, hburns, hothers, List.filterMap_append]

/-- The burns of another token on the timeline are the strays. -/
lemma filter_timeline_perm : ((reconcile policy cycle raw now).view.timeline.filter fun e =>
    e.record.isForeignBurn policy.token).Perm (strays policy.token raw) := by
  rw [← filter_shown]
  exact (timeline_perm policy cycle raw now).filter _

/-- Whatever is counted of the burns on the timeline, strays are counted too. -/
lemma countP_burns {q : Entry → Bool} (hq : ∀ e, q e → e.category = .unauditedBurn) :
    (reconcile policy cycle raw now).view.timeline.countP q =
      ((reconcile policy cycle raw now).view.timeline.countP fun e =>
          e.isOwnBurn policy.token && q e) +
        (strays policy.token raw).countP q := by
  rw [List.countP_eq_countP_filter_add _ q fun e => e.record.isForeignBurn policy.token,
    (filter_timeline_perm policy cycle raw now).countP_eq, List.countP_filter, Nat.add_comm]
  congr 1
  -- what is left is of no other token, and so it is a burn of the given one
  refine List.countP_congr fun e _ => ?_
  have hshape := hq e
  simp only [Bool.and_eq_true, Entry.isOwnBurn_iff, Bool.not_eq_true, Bool.not_eq_true']
  tauto

/-- **Burns of another token.** The burns of another token on the timeline are just those that come
in a collection where burns are not served. They are counted among the burns, and among those that
are overdue. There is none on the timeline if and only if none comes in such a collection. -/
theorem foreign_burns_shown (policy : Policy) (cycle : Nat) (raw : Collections Json)
    (now : Instant) :
    let view := (reconcile policy cycle raw now).view
    let others := strays policy.token raw
    (view.timeline.filter fun e => e.record.isForeignBurn policy.token).Perm others ∧
      view.stats.count .unauditedBurn =
        view.timeline.countP (Entry.isOwnBurn policy.token) + others.length ∧
      view.stats.overdueBurns =
        (view.timeline.countP fun e =>
            e.isOwnBurn policy.token && e.isOverdue now policy.overdueAfter) +
          others.countP (Entry.isOverdue now policy.overdueAfter) ∧
      ((∀ e ∈ view.timeline, ¬e.record.isForeignBurn policy.token) ↔ others = []) := by
  intro view others
  have hperm : (view.timeline.filter fun e => e.record.isForeignBurn policy.token).Perm others :=
    filter_timeline_perm policy cycle raw now
  refine ⟨hperm, ?_, countP_burns policy cycle raw now fun _ => Entry.category_of_isOverdue, ?_⟩
  · have hown : (view.timeline.countP fun e =>
        e.isOwnBurn policy.token && decide (e.category = .unauditedBurn)) =
          view.timeline.countP (Entry.isOwnBurn policy.token) :=
      List.countP_congr fun e _ => by
        rw [Bool.and_eq_true, decide_eq_true_eq]
        exact and_iff_left_of_imp fun h => (Entry.isOwnBurn_iff.mp h).1
    have hothers : others.countP (fun e => e.category = .unauditedBurn) = others.length := by
      refine List.countP_eq_length.mpr fun e he => decide_eq_true ?_
      have hforeign := (List.mem_filter.mp (hperm.mem_iff.mpr he)).2
      exact Entry.category_of_isForeignBurn hforeign
    rw [← hown, ← hothers]
    exact countP_burns policy cycle raw now fun _ => of_decide_eq_true
  · rw [← List.filter_eq_nil_iff]
    constructor
    · intro hnone
      rw [hnone] at hperm
      exact List.nil_perm.mp hperm
    · intro hnone
      rw [hnone] at hperm
      exact List.perm_nil.mp hperm

/-- A burn of another token that comes among the deposits is on the timeline. -/
theorem stray_burn_is_shown :
    ¬∀ e ∈ (reconcile {} 1 { unauditedDeposits := [servedBurn 2 5 (.string "2023-02-26")] }
      ⟨0, 0⟩).view.timeline, ¬e.record.isForeignBurn 1 := by
  decide +kernel

end BridgeAudit
