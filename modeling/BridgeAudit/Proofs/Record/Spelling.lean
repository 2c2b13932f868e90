import BridgeAudit.Proofs.Json.Members
import BridgeAudit.Record.Basic

/-!
The spellings of field names.

A field of a structure has one or two names, and each of them is read in snake case and in
camel case.

* `secondNames`, `fieldNames`: the fields with a second name, and all names of a field.
* `Accepted`: the spellings under which a field is read.
* `Respelled`: a value with every name inside it replaced by some spelling, and the members of
  every object in any order.
* `Clear`: field names that can be told apart in every spelling.
* `Respelled.renamed`: what is left of a respelled object once all keys are in snake case; its
  members are found again by `Renamed.exists_givenFor` and `Renamed.mem_keys_iff`.
-/

namespace BridgeAudit

variable {name key : String} {v : Json} {ms us ws ks : List (String × Json)}
variable {m : String × Json}

/-! ### Names and spellings -/

/-- The fields of a table that have a second name, each with that name. -/
def Table.secondNames {τ : Type} : Table τ → List (String × String)
  | .nil => []
  | .cons f rest => f.otherName.toList.map (f.name, ·) ++ rest.secondNames

/-- The fields of all structures that have a second name, each with that name. -/
def secondNames : List (String × String) :=
  Mint.layout.table.secondNames ++ Burn.layout.table.secondNames ++
    Deposit.layout.table.secondNames ++ Withdrawal.layout.table.secondNames ++
    MintLink.layout.table.secondNames ++ BurnLink.layout.table.secondNames ++
    AuditedMint.layout.table.secondNames ++ AuditedBurn.layout.table.secondNames ++
    UnauditedBurn.layout.table.secondNames ++ UnauditedDeposit.layout.table.secondNames

/-- All names of a field. -/
def fieldNames (name : String) : List String :=
  name :: (secondNames.filter fun p => p.1 = name).map (·.2)

/-- A spelling under which a field is read: one of its names in snake case or in camel case. -/
def Accepted (name key : String) : Prop := ∃ n ∈ fieldNames name, key = n ∨ key = Key.camel n

instance (name key : String) : Decidable (Accepted name key) :=
  inferInstanceAs (Decidable (∃ n ∈ fieldNames name, key = n ∨ key = Key.camel n))

/-- The value is an object. -/
def Json.isObject : Json → Bool
  | .object _ => true
  | _ => false

/-- A value with every name inside it replaced by an accepted spelling; the members of an object
may come in any order. -/
inductive Respelled : Json → Json → Prop
  | object {ms ws us : List (String × Json)}
      (keys : List.Forall₂ Accepted (ms.map (·.1)) (ws.map (·.1)))
      (values : List.Forall₂ Respelled (ms.map (·.2)) (ws.map (·.2))) (order : ws.Perm us) :
      Respelled (.object ms) (.object us)
  | same {v : Json} (h : v.isObject = false) : Respelled v v

mutual

/-- Every value is a spelling of itself. -/
theorem Respelled.refl : ∀ v : Json, Respelled v v
  | .object ms =>
      .object (List.forall₂_same.2 fun n _ => ⟨n, List.mem_cons_self, .inl rfl⟩)
        (Respelled.refl_values ms) (List.Perm.refl _)
  | .null | .boolean _ | .number _ | .string _ | .array _ => .same rfl

/-- `Respelled.refl` for the value of each member of an object. -/
theorem Respelled.refl_values : ∀ ms : List (String × Json),
    List.Forall₂ Respelled (ms.map (·.2)) (ms.map (·.2))
  | [] => .nil
  | (_, v) :: ms => .cons (Respelled.refl v) (Respelled.refl_values ms)

end

/-- Respelling changes objects only. -/
lemma Respelled.eq_of_not_isObject {w : Json} (h : Respelled v w) (hv : v.isObject = false) :
    w = v := by
  cases h with
  | object => cases hv
  | same => rfl

/-- The members of an object that are there for a field. -/
def givenFor (name : String) (ms : List (String × Json)) : List (String × Json) :=
  ms.filter fun m => m.1 ∈ fieldNames name

/-- A key that comes back from both of its spellings. -/
def Key.Returns (key : String) : Prop := Key.snake key = key ∧ Key.snake (Key.camel key) = key

instance (key : String) : Decidable (Key.Returns key) :=
  inferInstanceAs (Decidable (Key.snake key = key ∧ Key.snake (Key.camel key) = key))

/-- Field names that can be told apart in every spelling: no two fields share a name, and each
name comes back from its spellings. -/
structure Clear (names : List String) : Prop where
  nodup : (names.flatMap fieldNames).Nodup
  returns : ∀ n ∈ names.flatMap fieldNames, Key.Returns n

instance (names : List String) : Decidable (Clear names) :=
  decidable_of_iff
    ((names.flatMap fieldNames).Nodup ∧ ∀ n ∈ names.flatMap fieldNames, Key.Returns n)
    ⟨fun h => ⟨h.1, h.2⟩, fun h => ⟨h.1, h.2⟩⟩

/-- A key that has no part in a second name. -/
def IsSole (key : String) : Prop := ∀ p ∈ secondNames, p.1 ≠ key ∧ p.2 ≠ key

instance (key : String) : Decidable (IsSole key) :=
  inferInstanceAs (Decidable (∀ p ∈ secondNames, p.1 ≠ key ∧ p.2 ≠ key))

lemma mem_fieldNames_iff : key ∈ fieldNames name ↔ key = name ∨ (name, key) ∈ secondNames := by
  simp only [fieldNames, List.mem_cons, List.mem_map, List.mem_filter, decide_eq_true_eq]
  constructor
  · rintro (rfl | ⟨p, ⟨hp, rfl⟩, rfl⟩)
    · exact .inl rfl
    · exact .inr hp
  · rintro (rfl | hp)
    · exact .inl rfl
    · exact .inr ⟨_, ⟨hp, rfl⟩, rfl⟩

lemma IsSole.mem_iff (h : IsSole key) : key ∈ fieldNames name ↔ key = name := by
  rw [mem_fieldNames_iff, or_iff_left_iff_imp]
  intro hp
  exact absurd rfl (h _ hp).2

lemma IsSole.mem_self_iff (h : IsSole name) : key ∈ fieldNames name ↔ key = name := by
  rw [mem_fieldNames_iff, or_iff_left_iff_imp]
  intro hp
  exact absurd rfl (h _ hp).1

lemma givenFor_cons_of_mem (h : m.1 ∈ fieldNames name) :
    givenFor name (m :: ms) = m :: givenFor name ms := List.filter_cons_of_pos (by simpa using h)

lemma givenFor_cons_of_notMem (h : m.1 ∉ fieldNames name) :
    givenFor name (m :: ms) = givenFor name ms := List.filter_cons_of_neg (by simpa using h)

/-- In snake case, a spelling of a field is one of its names. -/
lemma Accepted.snake_mem (h : Accepted name key) (hn : ∀ n ∈ fieldNames name, Key.Returns n) :
    Key.snake key ∈ fieldNames name := by
  obtain ⟨n, hmem, rfl | rfl⟩ := h
  · rwa [(hn _ hmem).1]
  · rwa [(hn _ hmem).2]

namespace Clear

variable {names : List String}

lemma tail (h : Clear (name :: names)) : Clear names := by
  obtain ⟨hnodup, hreturns⟩ := h
  rw [List.flatMap_cons] at hnodup hreturns
  exact ⟨(List.nodup_append.1 hnodup).2.1, fun n hn => hreturns n (List.mem_append_right _ hn)⟩

/-- A name of the first field is no name of any later one. -/
lemma notMem_of_mem (h : Clear (name :: names)) (hkey : key ∈ fieldNames name) :
    key ∉ names.flatMap fieldNames := by
  have hnodup := h.nodup
  rw [List.flatMap_cons, List.nodup_append] at hnodup
  exact fun hm => hnodup.2.2 _ hkey _ hm rfl

end Clear

/-! ### What is left of a respelled object -/

/-- A member under one of the names of another one, with a value that comes of respelling the
other value and putting its keys in snake case. -/
def Renamed (m u : String × Json) : Prop :=
  u.1 ∈ fieldNames m.1 ∧ ∃ w, Respelled m.2 w ∧ u.2 = w.snakeKeys

namespace Renamed

/-- Putting keys in snake case makes renamed members of respelled ones. -/
lemma of_respelled (hn : ∀ m ∈ ms, ∀ n ∈ fieldNames m.1, Key.Returns n)
    (keys : List.Forall₂ (fun m w => Accepted m.1 w.1) ms ws)
    (values : List.Forall₂ (fun m w => Respelled m.2 w.2) ms ws) :
    List.Forall₂ Renamed ms (Json.snakeKeysMembers ws) := by
  rw [Json.snakeKeysMembers_eq_map, List.forall₂_map_right_iff]
  induction keys with
  | nil => exact .nil
  | cons hkey _ ih =>
      rw [List.forall_mem_cons] at hn
      rw [List.forall₂_cons] at values
      exact .cons ⟨hkey.snake_mem hn.1, _, values.1, rfl⟩ (ih hn.2 values.2)

/-- The keys of renamed members are names of the fields. -/
lemma keys_subset (h : List.Forall₂ Renamed ms us) :
    us.map (·.1) ⊆ (ms.map (·.1)).flatMap fieldNames := by
  induction h with
  | nil => exact List.Subset.refl _
  | cons hm _ ih =>
      rw [List.map_cons, List.map_cons, List.flatMap_cons]
      exact List.cons_subset.2 ⟨List.mem_append_left _ hm.1,
        List.Subset.trans ih (List.subset_append_right _ _)⟩

lemma keys_nodup (h : List.Forall₂ Renamed ms us) (hc : Clear (ms.map (·.1))) :
    (us.map (·.1)).Nodup := by
  induction h with
  | nil => exact List.nodup_nil
  | cons hm hms ih =>
      rw [List.map_cons] at hc
      rw [List.map_cons, List.nodup_cons]
      exact ⟨fun hu => hc.notMem_of_mem hm.1 (keys_subset hms hu), ih hc.tail⟩

/-- Each field is given once, by its renamed member. -/
lemma exists_givenFor (h : List.Forall₂ Renamed ms us) (hc : Clear (ms.map (·.1))) (hm : m ∈ ms) :
    ∃ u, givenFor m.1 us = [u] ∧ Renamed m u := by
  induction h with
  | nil => exact absurd hm List.not_mem_nil
  | @cons m' u ms us hu hms ih =>
      rw [List.map_cons] at hc
      obtain rfl | hm := List.mem_cons.1 hm
      · -- the names of the later members are names of other fields
        have hnil : givenFor m.1 us = [] := by
          refine List.filter_eq_nil_iff.2 fun x hx hkey => ?_
          exact hc.notMem_of_mem (of_decide_eq_true hkey)
            (keys_subset hms (List.mem_map_of_mem hx))
        refine ⟨u, ?_, hu⟩
        rw [givenFor_cons_of_mem hu.1, hnil]
      · have hne : u.1 ∉ fieldNames m.1 := fun hkey =>
          hc.notMem_of_mem hu.1
            (List.mem_flatMap.2 ⟨m.1, List.mem_map_of_mem hm, hkey⟩)
        obtain ⟨u', hgiven, hu'⟩ := ih hc.tail hm
        refine ⟨u', ?_, hu'⟩
        rw [givenFor_cons_of_notMem hne, hgiven]

/-- A key without a part in second names is there exactly if it was there before. -/
lemma mem_keys_iff (h : List.Forall₂ Renamed ms us) (hkey : IsSole key) :
    key ∈ us.map (·.1) ↔ key ∈ ms.map (·.1) := by
  induction h with
  | nil => exact Iff.rfl
  | @cons m u _ _ hu _ ih =>
      have hhead : key = u.1 ↔ key = m.1 := by
        constructor
        · rintro rfl
          exact hkey.mem_iff.1 hu.1
        · rintro rfl
          exact (hkey.mem_self_iff.1 hu.1).symm
      rw [List.map_cons, List.map_cons, List.mem_cons, List.mem_cons, hhead, ih]

end Renamed

/-- Once its keys are in snake case, a respelled object has its members renamed, in some order. -/
lemma Respelled.renamed (h : Respelled (.object ms) v) (hc : Clear (ms.map (·.1))) :
    ∃ us ks, List.Forall₂ Renamed ms us ∧ ks.Perm us ∧ v.snakeKeys = .object ks := by
  cases h with
  | same h => cases h
  | @object _ ws vs keys values order =>
      have hreturns : ∀ m ∈ ms, ∀ n ∈ fieldNames m.1, Key.Returns n := fun m hm n hn =>
        hc.returns n (List.mem_flatMap.2 ⟨m.1, List.mem_map_of_mem hm, hn⟩)
      rw [List.forall₂_map_left_iff, List.forall₂_map_right_iff] at keys values
      have hrenamed := Renamed.of_respelled hreturns keys values
      have horder : (Json.snakeKeysMembers vs).Perm (Json.snakeKeysMembers ws) := by
        rw [Json.snakeKeysMembers_eq_map, Json.snakeKeysMembers_eq_map]
        exact (order.map _).symm
      have hnodup := (horder.map (·.1)).nodup_iff.2 (Renamed.keys_nodup hrenamed hc)
      exact ⟨_, _, hrenamed, (Members.ofList_perm hnodup).trans horder, rfl⟩

end BridgeAudit
