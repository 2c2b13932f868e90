import Mathlib.Order.Defs.LinearOrder
import Mathlib.Tactic
import BridgeAudit.Timeline.Entry

/-!
The order of the timeline.

* `Instant` is linearly ordered.
* `Entry.Sorted`: the newest entries come first.
* `Entry.at`: the entries of one instant.
* `Entry.sort_eq_iff`: a sorted timeline is determined by what it has at each instant.
-/

namespace BridgeAudit

/-! ### Instants -/

namespace Instant

variable {a b c : Instant}

lemma le_iff : a ≤ b ↔ a.seconds < b.seconds ∨ a.seconds = b.seconds ∧ a.nanos ≤ b.nanos := by
  change a.le b = true ↔ _
  simp [Instant.le]

instance : LinearOrder Instant where
  le := (· ≤ ·)
  le_refl a := le_iff.mpr (by omega)
  le_trans a b c hab hbc := by
    rw [le_iff] at *
    omega
  le_antisymm a b hab hba := by
    rw [le_iff] at hab hba
    have hs : a.seconds = b.seconds := by omega
    have hn : a.nanos = b.nanos := by omega
    cases a
    cases b
    simp_all
  le_total a b := by
    simp only [le_iff]
    omega
  toDecidableLE := inferInstance

end Instant

namespace Entry

variable {entries other : List Entry} {a b : Entry} {t : Instant}

lemma notOlder_trans (a b c : Entry) (hab : notOlder a b) (hbc : notOlder b c) :
    notOlder a c := by
  have h : c.occurredAt ≤ b.occurredAt := hbc
  exact h.trans hab

lemma notOlder_total (a b : Entry) : notOlder a b || notOlder b a := by
  rw [Bool.or_eq_true]
  exact le_total b.occurredAt a.occurredAt

/-! ### Sorted timelines -/

/-- Newer entries come before older ones. -/
def Sorted (entries : List Entry) : Prop :=
  entries.Pairwise fun a b => b.occurredAt ≤ a.occurredAt

/-- The entries of an instant, as they stand. -/
def ofInstant (entries : List Entry) (t : Instant) : List Entry :=
  entries.filter fun e => e.occurredAt = t

lemma ofInstant_cons : ofInstant (a :: entries) t =
    if a.occurredAt = t then a :: ofInstant entries t else ofInstant entries t := by
  simp [ofInstant, List.filter_cons]

lemma mem_ofInstant : a ∈ ofInstant entries t ↔ a ∈ entries ∧ a.occurredAt = t := by
  simp [ofInstant]

lemma sort_perm (entries : List Entry) : (sort entries).Perm entries :=
  List.mergeSort_perm entries notOlder

lemma sorted_sort (entries : List Entry) : Sorted (sort entries) :=
  List.pairwise_mergeSort notOlder_trans notOlder_total entries

/-- Entries of one instant stay as they stand. -/
lemma ofInstant_sort (entries : List Entry) (t : Instant) :
    ofInstant (sort entries) t = ofInstant entries t := by
  have hequal : (ofInstant entries t).Pairwise fun a b => notOlder a b := by
    refine List.pairwise_of_forall_mem_list fun a ha b hb => ?_
    have heq : b.occurredAt = a.occurredAt :=
      (mem_ofInstant.mp hb).2.trans (mem_ofInstant.mp ha).2.symm
    exact heq.le
  have hsub : (ofInstant entries t).Sublist (sort entries) :=
    List.sublist_mergeSort notOlder_trans notOlder_total hequal List.filter_sublist
  have hsub' : (ofInstant entries t).Sublist (ofInstant (sort entries) t) := by
    simpa only [ofInstant, List.filter_filter, Bool.and_self] using
      hsub.filter fun e => e.occurredAt = t
  exact (hsub'.eq_of_length ((sort_perm entries).filter _).length_eq.symm).symm

/-- The first entry of a sorted timeline is not older than any other one. -/
lemma Sorted.le_of_mem (h : Sorted (a :: entries)) (hb : b ∈ a :: entries) :
    b.occurredAt ≤ a.occurredAt := by
  rcases List.mem_cons.mp hb with rfl | hb
  · exact le_rfl
  · exact (List.pairwise_cons.mp h).1 b hb

/-- A sorted timeline is determined by what it has at each instant. -/
lemma Sorted.ext (h : Sorted entries) (h' : Sorted other)
    (heq : ∀ t, ofInstant entries t = ofInstant other t) : entries = other := by
  induction entries generalizing other with
  | nil =>
      refine (List.eq_nil_iff_forall_not_mem.mpr fun b hb => ?_).symm
      have hmem : b ∈ ofInstant other b.occurredAt := mem_ofInstant.mpr ⟨hb, rfl⟩
      rw [← heq] at hmem
      exact List.not_mem_nil hmem
  | cons a entries ih =>
      have ha : a ∈ ofInstant other a.occurredAt := heq _ ▸ mem_ofInstant.mpr ⟨by simp, rfl⟩
      cases other with
      | nil => exact absurd ha List.not_mem_nil
      | cons b other =>
          have hb : b ∈ ofInstant (a :: entries) b.occurredAt :=
            heq _ ▸ mem_ofInstant.mpr ⟨by simp, rfl⟩
          -- each of the two first entries stands in the other timeline as well
          have hinstant : a.occurredAt = b.occurredAt :=
            le_antisymm (h'.le_of_mem (mem_ofInstant.mp ha).1) (h.le_of_mem (mem_ofInstant.mp hb).1)
          obtain rfl : a = b := by
            have hfirst := heq a.occurredAt
            rw [ofInstant_cons, ofInstant_cons, if_pos rfl, if_pos hinstant.symm] at hfirst
            exact (List.cons.inj hfirst).1
          congr 1
          refine ih h.of_cons h'.of_cons fun t => ?_
          have ht := heq t
          rw [ofInstant_cons, ofInstant_cons] at ht
          split at ht
          · exact (List.cons.inj ht).2
          · exact ht

/-- **Stable sorting.** The sorted timeline is the only one that has the newest entries first and
at each instant the given ones, as they stand. -/
theorem sort_eq_iff : sort entries = other ↔
    Sorted other ∧ ∀ t, ofInstant other t = ofInstant entries t := by
  constructor
  · rintro rfl
    exact ⟨sorted_sort entries, ofInstant_sort entries⟩
  · rintro ⟨hsorted, heq⟩
    exact (sorted_sort entries).ext hsorted fun t => (ofInstant_sort entries t).trans (heq t).symm

/-- A sorted timeline stays as it is. -/
lemma Sorted.sort_eq (h : Sorted entries) : sort entries = entries :=
  sort_eq_iff.mpr ⟨h, fun _ => rfl⟩

end Entry

end BridgeAudit
