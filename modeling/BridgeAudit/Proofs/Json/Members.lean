import Mathlib.Tactic
import Mathlib.Data.String.Basic
import BridgeAudit.Json.Keys

/-!
The members of an object put in order.

* `Members.ofList_perm`: members whose keys are all different are only put in another order.
* `Members.get?_ofList`: of several members under one key the last one is found.
* `Members.InOrder`, `Members.inOrder_ofList`, `Members.ofList_eq_self`: members that are put in
  order come in the order of their keys, and those that do already stay as they are.
* `Members.filter_ofList`, `Members.forall₂_ofList`: keys may be left out before or after, and
  members that are alike are put in order alike.
* `Members.has_iff`, `Members.has_congr`: whether a key is there is a matter of the keys alone.
* `Json.snakeKeysMembers_eq_map`, `Json.snakeKeysItems_eq_map`: members and items are respelled
  one by one.
-/

namespace BridgeAudit

namespace Members

variable {α β : Type} {key : String} {ms acc : List (String × α)}

/-- A new key goes in between the others. -/
lemma insert_perm (value : α) (h : key ∉ ms.map (·.1)) :
    (insert key value ms).Perm ((key, value) :: ms) := by
  induction ms with
  | nil => exact List.Perm.refl _
  | cons m ms ih =>
      rw [List.map_cons, List.mem_cons, not_or] at h
      rw [insert, if_neg h.1]
      split
      · exact List.Perm.refl _
      · calc List.Perm (m :: insert key value ms) (m :: (key, value) :: ms) := (ih h.2).cons m
          List.Perm _ ((key, value) :: m :: ms) := List.Perm.swap _ _ _

lemma foldl_insert_perm (h : ((acc ++ ms).map (·.1)).Nodup) :
    (ms.foldl (fun acc m => insert m.1 m.2 acc) acc).Perm (acc ++ ms) := by
  induction ms generalizing acc with
  | nil => simp
  | cons m ms ih =>
      have hm : m.1 ∉ acc.map (·.1) := by
        rw [List.map_append, List.map_cons, List.nodup_middle, List.nodup_cons] at h
        exact fun hm => h.1 (List.mem_append_left _ hm)
      have hput : (insert m.1 m.2 acc ++ ms).Perm (acc ++ m :: ms) :=
        ((insert_perm m.2 hm).append_right ms).trans List.perm_middle.symm
      rw [List.foldl_cons]
      exact (ih ((hput.map _).nodup_iff.2 h)).trans hput

/-- Members whose keys are all different are only put in another order. -/
lemma ofList_perm (h : (ms.map (·.1)).Nodup) : (ofList ms).Perm ms := foldl_insert_perm h

/-- The last of some members is put in order behind the others. -/
lemma ofList_concat (ms : List (String × α)) (m : String × α) :
    ofList (ms ++ [m]) = insert m.1 m.2 (ofList ms) := by
  rw [ofList, List.foldl_append]
  rfl

/-- Of several members under one key the last one is found. -/
lemma get?_ofList (ms : List (String × α)) (key : String) :
    get? (ofList ms) key = get? ms.reverse key := by
  induction ms using List.reverseRecOn with
  | nil => rfl
  | append_singleton ms m ih =>
      rw [ofList_concat, List.reverse_append]
      by_cases hkey : m.1 = key
      · rw [hkey, get?_insert_self]
        simp [get?, hkey]
      · rw [get?_insert_of_ne hkey, ih]
        simp [get?, hkey]

/-! ### The order of the keys -/

/-- The keys come in strictly increasing order. -/
def InOrder (ms : List (String × α)) : Prop := ms.Pairwise fun m m' => m.1 < m'.1

lemma mem_insert {value : α} {m : String × α} (h : m ∈ insert key value ms) :
    m = (key, value) ∨ m ∈ ms := by
  induction ms with
  | nil => exact .inl (List.mem_singleton.mp h)
  | cons n ms ih =>
      rw [insert] at h
      split at h
      · exact List.mem_cons.mp h
      · split at h
        · exact (List.mem_cons.mp h).imp_right (List.mem_cons_of_mem n)
        · rcases List.mem_cons.mp h with rfl | h
          · exact .inr List.mem_cons_self
          · exact (ih h).imp_right (List.mem_cons_of_mem n)

/-- What is put in order is nothing new. -/
lemma mem_of_mem_ofList {m : String × α} (h : m ∈ ofList ms) : m ∈ ms := by
  induction ms using List.reverseRecOn with
  | nil => exact h
  | append_singleton ms n ih =>
      rw [ofList_concat] at h
      rcases mem_insert h with rfl | h
      · exact List.mem_append_right _ List.mem_cons_self
      · exact List.mem_append_left _ (ih h)

lemma InOrder.insert (value : α) (h : InOrder ms) : InOrder (insert key value ms) := by
  induction ms with
  | nil => exact List.pairwise_singleton _ _
  | cons m ms ih =>
      obtain ⟨hm, hms⟩ := List.pairwise_cons.mp h
      rw [Members.insert]
      split
      next hlt =>
        refine List.pairwise_cons.mpr ⟨fun n hn => ?_, h⟩
        rcases List.mem_cons.mp hn with rfl | hn
        · exact hlt
        · exact lt_trans hlt (hm n hn)
      next hlt =>
        split
        next heq => exact List.pairwise_cons.mpr ⟨fun n hn => heq ▸ hm n hn, hms⟩
        next hne =>
          refine List.pairwise_cons.mpr ⟨fun n hn => ?_, ih hms⟩
          rcases mem_insert hn with rfl | hn
          · exact lt_of_le_of_ne (not_lt.mp hlt) (Ne.symm hne)
          · exact hm n hn

/-- Members that are put in order come in the order of their keys. -/
lemma inOrder_ofList (ms : List (String × α)) : InOrder (ofList ms) := by
  induction ms using List.reverseRecOn with
  | nil => exact List.Pairwise.nil
  | append_singleton ms m ih =>
      rw [ofList_concat]
      exact ih.insert m.2

lemma InOrder.nodup (h : InOrder ms) : (ms.map (·.1)).Nodup :=
  (List.pairwise_map.mpr h).imp ne_of_lt

/-- Members that come in the order of their keys stay as they are. -/
lemma ofList_eq_self (h : InOrder ms) : ofList ms = ms :=
  (ofList_perm h.nodup).eq_of_pairwise
    (fun _ _ _ _ hlt hgt => absurd hgt (lt_asymm hlt)) (inOrder_ofList ms) h

/-! ### Keys that are there -/

lemma has_iff : has ms key ↔ key ∈ ms.map (·.1) := by
  simp only [has, List.any_eq_true, decide_eq_true_eq, List.mem_map]

lemma isSome_get?_iff : (get? ms key).isSome ↔ key ∈ ms.map (·.1) := by
  simp only [get?, Option.isSome_map, List.find?_isSome, decide_eq_true_eq, List.mem_map]

/-- Putting members in order brings in no key and loses none. -/
lemma mem_keys_ofList : key ∈ (ofList ms).map (·.1) ↔ key ∈ ms.map (·.1) := by
  rw [← isSome_get?_iff, get?_ofList, isSome_get?_iff, List.map_reverse, List.mem_reverse]

lemma has_congr {ks : List (String × β)} (h : key ∈ ms.map (·.1) ↔ key ∈ ks.map (·.1)) :
    has ms key = has ks key := by
  rw [Bool.eq_iff_iff, has_iff, has_iff, h]

/-! ### Leaving out members, and comparing them -/

/-- A key before all others comes first. -/
lemma insert_of_forall_lt (a : α) (h : ∀ m ∈ ms, key < m.1) : insert key a ms = (key, a) :: ms := by
  cases ms with
  | nil => rfl
  | cons m ms => rw [insert, if_pos (h m List.mem_cons_self)]

/-- What is put in order after others is left out, or is put among what is left of them. -/
lemma filter_insert_of_inOrder (p : String → Bool) (a : α) (h : InOrder ms) :
    (insert key a ms).filter (fun m => p m.1) =
      if p key then insert key a (ms.filter fun m => p m.1) else ms.filter fun m => p m.1 := by
  induction ms with
  | nil => simp [insert, List.filter_cons]
  | cons m ms ih =>
      obtain ⟨hm, hms⟩ := List.pairwise_cons.mp h
      rcases lt_trichotomy key m.1 with hlt | rfl | hgt
      · have hfirst : ∀ n ∈ m :: ms, key < n.1 :=
          List.forall_mem_cons.mpr ⟨hlt, fun n hn => hlt.trans (hm n hn)⟩
        rw [insert_of_forall_lt a hfirst, List.filter_cons,
          insert_of_forall_lt a fun n hn => hfirst n (List.mem_of_mem_filter hn)]
      · by_cases hp : p m.1 <;> simp [insert, hp]
      · by_cases hp : p m.1 <;> by_cases hkey : p key <;>
          simp [insert, hgt.not_gt, hgt.ne', hp, hkey, ih hms]

/-- Keys may be left out before members are put in order or afterwards. -/
lemma filter_ofList (p : String → Bool) (ms : List (String × α)) :
    (ofList ms).filter (fun m => p m.1) = ofList (ms.filter fun m => p m.1) := by
  induction ms using List.reverseRecOn with
  | nil => rfl
  | append_singleton ms m ih =>
      rw [ofList_concat, filter_insert_of_inOrder p m.2 (inOrder_ofList ms), ih,
        List.filter_append, List.filter_singleton]
      split
      next hm => rw [hm, Bool.cond_true, ofList_concat]
      next hm => simp [hm]

variable {us acc' : List (String × β)} {R : String × α → String × β → Prop}

/-- Members that are alike, with the same keys, are put in order alike. -/
lemma forall₂_insert (hkeys : ∀ m n, R m n → m.1 = n.1) {m : String × α} {n : String × β}
    (hmn : R m n) (h : List.Forall₂ R ms us) :
    List.Forall₂ R (insert m.1 m.2 ms) (insert n.1 n.2 us) := by
  obtain ⟨key, a⟩ := m
  obtain ⟨key', b⟩ := n
  obtain rfl : key = key' := hkeys _ _ hmn
  induction h with
  | nil => exact .cons hmn .nil
  | @cons x y ms us hxy hrest ih =>
      rw [insert, insert, ← hkeys _ _ hxy]
      split
      · exact .cons hmn (.cons hxy hrest)
      · split
        · exact .cons hmn hrest
        · exact .cons hxy ih

lemma forall₂_foldl_insert (hkeys : ∀ m n, R m n → m.1 = n.1) (h : List.Forall₂ R ms us)
    (hacc : List.Forall₂ R acc acc') :
    List.Forall₂ R (ms.foldl (fun acc m => insert m.1 m.2 acc) acc)
      (us.foldl (fun acc m => insert m.1 m.2 acc) acc') := by
  induction h generalizing acc acc' with
  | nil => exact hacc
  | cons hmn _ ih => exact ih (forall₂_insert hkeys hmn hacc)

lemma forall₂_ofList (hkeys : ∀ m n, R m n → m.1 = n.1) (h : List.Forall₂ R ms us) :
    List.Forall₂ R (ofList ms) (ofList us) := forall₂_foldl_insert hkeys h .nil

end Members

namespace Json

lemma snakeKeysMembers_eq_map (ms : List (String × Json)) :
    snakeKeysMembers ms = ms.map fun m => (Key.snake m.1, m.2.snakeKeys) := by
  induction ms with
  | nil => rfl
  | cons m ms ih => rw [snakeKeysMembers, ih, List.map_cons]

lemma snakeKeysItems_eq_map (vs : List Json) : snakeKeysItems vs = vs.map snakeKeys := by
  induction vs with
  | nil => rfl
  | cons v vs ih => rw [snakeKeysItems, ih, List.map_cons]

end Json

end BridgeAudit
