import BridgeAudit.Proofs.Timeline.Balance

/-!
The merge of the collections is stable.

* `filter_mergeSort`, `sublist_mergeSort_of_sublist`, `pairwise_mergeSort_of_pairwise`: a stable
  sort commutes with leaving out items, keeps the order of the others when items are added, and
  keeps items that tie as they stand.
* `Collections.labelled`: the items of all collections, each with its collection.
* `placed`: the timeline of six collections of entries, each entry with its collection.
* `merge_filter`: entries may be left out before the merge or after it.
-/

namespace BridgeAudit

/-! ### Stable sorting -/

section Sorting

variable {α : Type} {le : α → α → Bool} {R : α → α → Prop} {l l' : List α}
variable (htrans : ∀ a b c, le a b → le b c → le a c) (htotal : ∀ a b, le a b || le b a)

include htrans htotal

/-- The first item goes in between the others, behind those that it does not come before. -/
lemma mergeSort_cons_eq (a : α) (l : List α) :
    l.mergeSort le =
        (l.mergeSort le).filter (fun b => !le a b) ++ (l.mergeSort le).filter (le a) ∧
      (a :: l).mergeSort le =
        (l.mergeSort le).filter (fun b => !le a b) ++ a :: (l.mergeSort le).filter (le a) := by
  obtain ⟨front, back, hcons, hl, hfront⟩ := List.mergeSort_cons htrans htotal a l
  have hback : ∀ b ∈ back, le a b := by
    have hsorted := List.pairwise_mergeSort htrans htotal (a :: l)
    rw [hcons] at hsorted
    exact (List.pairwise_cons.1 (List.pairwise_append.1 hsorted).2.1).1
  have hnot : (front ++ back).filter (fun b => !le a b) = front := by
    rw [List.filter_append, List.filter_eq_self.2 hfront, List.filter_eq_nil_iff.2,
      List.append_nil]
    intro b hb
    simp [hback b hb]
  have hle : (front ++ back).filter (le a) = back := by
    rw [List.filter_append, List.filter_eq_self.2 hback, List.filter_eq_nil_iff.2, List.nil_append]
    intro b hb
    simpa using hfront b hb
  rw [hcons, hl, hnot, hle]
  exact ⟨rfl, rfl⟩

/-- Items may be left out before sorting or after it. -/
lemma filter_mergeSort (p : α → Bool) (l : List α) :
    (l.mergeSort le).filter p = (l.filter p).mergeSort le := by
  induction l with
  | nil => simp
  | cons a l ih =>
      obtain ⟨hl, hcons⟩ := mergeSort_cons_eq htrans htotal a l
      obtain ⟨-, hcons'⟩ := mergeSort_cons_eq htrans htotal a (l.filter p)
      rw [hcons, List.filter_append, List.filter_cons, List.filter_cons]
      split
      next ha =>
        rw [hcons', ← ih, List.filter_comm p, List.filter_comm p]
      next ha => rw [← List.filter_append, ← hl, ih]

/-- Items that are added do not change the order of the others. -/
lemma sublist_mergeSort_of_sublist (h : l.Sublist l') :
    (l.mergeSort le).Sublist (l'.mergeSort le) := by
  induction h with
  | slnil => exact List.Sublist.refl _
  | @cons l l' a _ ih =>
      obtain ⟨hl', hcons⟩ := mergeSort_cons_eq htrans htotal a l'
      rw [hcons]
      rw [hl'] at ih
      exact ih.trans ((List.Sublist.refl _).append (List.sublist_cons_self _ _))
  | @cons_cons l l' a _ ih =>
      rw [(mergeSort_cons_eq htrans htotal a l).2, (mergeSort_cons_eq htrans htotal a l').2]
      exact (ih.filter _).append ((ih.filter _).cons_cons a)

/-- Items that tie stay as they stand. -/
lemma pairwise_mergeSort_of_pairwise (h : l.Pairwise R) :
    (l.mergeSort le).Pairwise fun a b => le a b ∧ (le b a → R a b) := by
  induction h with
  | nil => simp
  | @cons a l ha _ ih =>
      obtain ⟨hl, hcons⟩ := mergeSort_cons_eq htrans htotal a l
      have hmem : ∀ b ∈ l.mergeSort le, R a b := fun b hb => ha b (List.mem_mergeSort.1 hb)
      rw [hl, List.pairwise_append] at ih
      obtain ⟨hfront, hback, hacross⟩ := ih
      rw [hcons, List.pairwise_append, List.pairwise_cons]
      refine ⟨hfront, ⟨fun b hb => ?_, hback⟩, fun b hb =>
        List.forall_mem_cons.2 ⟨?_, hacross b hb⟩⟩
      · obtain ⟨hb, hab⟩ := List.mem_filter.1 hb
        exact ⟨hab, fun _ => hmem b hb⟩
      · -- what stands in front of the new item does not tie with it
        have hnot : le a b = false := by simpa using (List.mem_filter.1 hb).2
        have hba := htotal a b
        rw [hnot, Bool.false_or] at hba
        exact ⟨hba, fun hab => absurd hab (by simp [hnot])⟩

end Sorting

/-! ### Entries with their collections -/

namespace Collections

variable {α β : Type}

/-- The items of all lists behind one another, each with its collection. -/
def labelled (cs : Collections α) : List (Collection × α) :=
  Collection.all.flatMap fun c => (cs.get c).map (c, ·)

lemma map_snd_labelled (cs : Collections α) : cs.labelled.map (·.2) = cs.flatten := by
  simp [labelled, flatten, List.map_flatMap]

/-- Lists with more items make up more. -/
lemma flatten_sublist {cs ds : Collections α} (h : ∀ c, (cs.get c).Sublist (ds.get c)) :
    cs.flatten.Sublist ds.flatten := by
  simp only [flatten, Collection.all, List.flatMap_cons, List.flatMap_nil]
  exact (h _).append <| (h _).append <| (h _).append <| (h _).append <| (h _).append <|
    (h _).append (List.Sublist.refl _)

/-- What is left out of each list is left out of all. -/
lemma labelled_filter (cs : Collections α) (p : Collection → α → Bool) :
    (cs.mapLists fun c items => items.filter (p c)).labelled =
      cs.labelled.filter fun x => p x.1 x.2 := by
  simp [labelled, List.filter_flatMap, List.filter_map, Function.comp_def]

lemma labelled_filter_collection (cs : Collections α) (c : Collection) :
    cs.labelled.filter (fun x => x.1 = c) = (cs.get c).map (c, ·) := by
  cases c <;> simp [labelled, Collection.all, List.filter_map, Function.comp_def]

end Collections

/-- The timeline of six collections of entries, each entry with its collection. -/
def placed (entries : Collections Entry) : List (Collection × Entry) :=
  entries.labelled.mergeSort fun a b => Entry.notOlder a.2 b.2

section Placed

variable (entries : Collections Entry)

lemma notOlder_trans_snd (a b c : Collection × Entry) (hab : Entry.notOlder a.2 b.2)
    (hbc : Entry.notOlder b.2 c.2) : Entry.notOlder a.2 c.2 :=
  Entry.notOlder_trans a.2 b.2 c.2 hab hbc

lemma notOlder_total_snd (a b : Collection × Entry) :
    Entry.notOlder a.2 b.2 || Entry.notOlder b.2 a.2 :=
  Entry.notOlder_total a.2 b.2

/-- Entries are sorted alike with their collections and without. -/
lemma map_snd_mergeSort (xs : List (Collection × Entry)) :
    (xs.mergeSort fun a b => Entry.notOlder a.2 b.2).map (·.2) = Entry.sort (xs.map (·.2)) :=
  List.map_mergeSort fun _ _ _ _ => rfl

lemma map_snd_placed : (placed entries).map (·.2) = merge entries := by
  rw [placed, map_snd_mergeSort, Collections.map_snd_labelled, merge]

lemma placed_perm : (placed entries).Perm entries.labelled := List.mergeSort_perm _ _

/-- Entries may be left out of their collections or out of the timeline. -/
lemma filter_placed (p : Collection → Entry → Bool) :
    (placed entries).filter (fun x => p x.1 x.2) =
      placed (entries.mapLists fun c es => es.filter (p c)) := by
  rw [placed, filter_mergeSort notOlder_trans_snd notOlder_total_snd, placed,
    Collections.labelled_filter]

/-- The entries of one collection come in the order of their own timeline. -/
lemma filter_placed_collection (c : Collection) :
    ((placed entries).filter fun x => x.1 = c).map (·.2) = Entry.sort (entries.get c) := by
  rw [placed, filter_mergeSort notOlder_trans_snd notOlder_total_snd,
    Collections.labelled_filter_collection, map_snd_mergeSort, List.map_map]
  exact congrArg Entry.sort (List.map_id _)

end Placed

/-- The entries that are shown, as those that are left when others are left out. -/
lemma shown_eq_mapLists (taken : Ingested) (token : UInt64) :
    taken.shown token = taken.entries.mapLists fun c es =>
      es.filter fun e => !(c = .unauditedBurns && e.record.isForeignBurn token) := by
  refine Collections.ext fun c => ?_
  rw [get_shown, Collections.get_mapLists]
  split
  next hc => simp [hc]
  next hc => simp [hc]

/-- **Leaving out before or after.** Entries that a test does not pass may be left out of their
collections before the merge, or out of the merged timeline. This is so for tests of an entry, and
for those of an entry and the collection that it comes in: `placed` is the timeline with the
collection of each entry, in which the entries of a collection come in the order of their own
timeline. So the timeline of a view is that of all entries without the burns of another token that
come where burns are served. Entries that are added to the collections, anywhere and however many,
do not change the order of those that are there. -/
theorem merge_filter (entries : Collections Entry) :
    (∀ p : Entry → Bool,
      merge (entries.mapLists fun _ es => es.filter p) = (merge entries).filter p) ∧
    (∀ p : Collection → Entry → Bool, merge (entries.mapLists fun c es => es.filter (p c)) =
      ((placed entries).filter fun x => p x.1 x.2).map (·.2)) ∧
    (placed entries).map (·.2) = merge entries ∧
    (∀ c, ((placed entries).filter fun x => x.1 = c).map (·.2) = Entry.sort (entries.get c)) ∧
    (∀ policy cycle raw now, (reconcile policy cycle raw now).view.timeline =
      ((placed (ingest raw).entries).filter fun x =>
        !(x.1 = .unauditedBurns && x.2.record.isForeignBurn policy.token)).map (·.2)) ∧
    ∀ more : Collections Entry, (∀ c, (entries.get c).Sublist (more.get c)) →
      (merge entries).Sublist (merge more) := by
  have hplaced : ∀ (entries : Collections Entry) (p : Collection → Entry → Bool),
      merge (entries.mapLists fun c es => es.filter (p c)) =
        ((placed entries).filter fun x => p x.1 x.2).map (·.2) := fun entries p => by
    rw [filter_placed, map_snd_placed]
  refine ⟨fun p => ?_, hplaced entries, map_snd_placed entries, filter_placed_collection entries,
    fun policy cycle raw now => ?_, fun more hmore => ?_⟩
  · calc merge (entries.mapLists fun _ es => es.filter p)
        = ((placed entries).filter fun x => p x.2).map (·.2) := hplaced entries fun _ => p
      _ = ((placed entries).map (·.2)).filter p := List.filter_map.symm
      _ = (merge entries).filter p := by rw [map_snd_placed]
  · calc (reconcile policy cycle raw now).view.timeline
        = merge ((ingest raw).shown policy.token) := rfl
      _ = _ := by rw [shown_eq_mapLists, hplaced]
  · exact sublist_mergeSort_of_sublist Entry.notOlder_trans Entry.notOlder_total
      (Collections.flatten_sublist hmore)

/-- A burn on the timeline. -/
def burnAt (seconds : Int) (amount : UInt64) : Entry :=
  ⟨⟨seconds, 0⟩, .unauditedBurn ⟨⟨none, 1, none, 1, amount, ""⟩, []⟩⟩

/-- Three burns of one instant keep their order when a newer one and another one of that instant
come in between and in front. -/
theorem merge_more_burns :
    let entries : Collections Entry :=
      { unauditedBurns := [burnAt 5 1, burnAt 5 2], unauditedDeposits := [burnAt 5 3] }
    let more : Collections Entry :=
      { auditedMints := [burnAt 5 4], unauditedBurns := [burnAt 5 1, burnAt 7 5, burnAt 5 2],
        unauditedDeposits := [burnAt 5 3] }
    (∀ c, (entries.get c).Sublist (more.get c)) ∧ (merge entries).Sublist (merge more) ∧
      merge entries = [burnAt 5 1, burnAt 5 2, burnAt 5 3] ∧
      merge more = [burnAt 7 5, burnAt 5 4, burnAt 5 1, burnAt 5 2, burnAt 5 3] := by
  intro entries more
  have hmore : ∀ c, (entries.get c).Sublist (more.get c) := by
    intro c
    cases c <;> decide
  obtain ⟨-, -, -, -, -, hsublist⟩ := merge_filter entries
  exact ⟨hmore, hsublist more hmore, by cbv, by cbv⟩

end BridgeAudit
