import BridgeAudit.Proofs.Json.Members
import BridgeAudit.Proofs.Text.Key
import BridgeAudit.Record.Basic

/-!
Values with all keys in snake case are a normal form.

* `Json.Inside`: a value that is a part of another one, at any depth.
* `Json.Canonical`: every object inside a value lists its keys in order, and there is no capital in
  any of them.
* `Json.canonical_snakeKeys`, `Json.Canonical.snakeKeys_eq`: putting the keys in snake case makes a
  canonical value, and leaves a canonical one as it is.
* `Json.get?_snakeKeys`: of several spellings of a key, the one in snake case wins.
* `snakeKeys_canonical`: all of this for any value, and what it means for the record in it.
-/

namespace BridgeAudit

namespace Json

variable {v w u : Json} {items : List Json} {ms : List (String × Json)} {key : String}

/-! ### Values inside values -/

/-- A value is inside another one: it is that value, or it is inside an item of an array or inside
the value of a member of an object. -/
inductive Inside (v : Json) : Json → Prop
  | self : Inside v v
  | item {w : Json} {items : List Json} (h : Inside v w) (hw : w ∈ items) : Inside v (.array items)
  | member {m : String × Json} {ms : List (String × Json)} (h : Inside v m.2) (hm : m ∈ ms) :
      Inside v (.object ms)

lemma Inside.trans (h : Inside v w) (h' : Inside w u) : Inside v u := by
  induction h' with
  | self => exact h
  | item _ hw ih => exact .item ih hw
  | member _ hm ih => exact .member ih hm

lemma sortedItems_iff : SortedItems items ↔ ∀ w ∈ items, Sorted w := by
  induction items with
  | nil => simp [SortedItems]
  | cons w items ih => rw [SortedItems, ih, List.forall_mem_cons]

lemma sortedMembers_iff : SortedMembers ms ↔ ∀ m ∈ ms, Sorted m.2 := by
  induction ms with
  | nil => simp [SortedMembers]
  | cons m ms ih => rw [SortedMembers, ih, List.forall_mem_cons]

/-- The objects inside a sorted value list their keys in order. -/
lemma Sorted.inOrder (h : Sorted v) (hms : Inside (.object ms) v) : Members.InOrder ms := by
  induction hms with
  | self =>
      rw [Sorted] at h
      exact List.pairwise_map.mp h.1
  | item _ hw ih =>
      rw [Sorted, sortedItems_iff] at h
      exact ih (h _ hw)
  | member _ hm ih =>
      rw [Sorted, sortedMembers_iff] at h
      exact ih (h.2 _ hm)

/-! ### Canonical values -/

/-- Every object inside the value lists its keys in order, and there is no capital in any key. -/
def Canonical (v : Json) : Prop :=
  ∀ ms, Inside (.object ms) v → Members.InOrder ms ∧ ∀ m ∈ ms, Key.NoCapital m.1

lemma Canonical.inside (h : Canonical v) (hw : Inside w v) : Canonical w :=
  fun ms hms => h ms (hms.trans hw)

lemma canonical_array (h : ∀ w ∈ items, Canonical w) : Canonical (.array items) := by
  intro ms hms
  cases hms with
  | item hin hw => exact h _ hw ms hin

lemma canonical_object (horder : Members.InOrder ms) (hkeys : ∀ m ∈ ms, Key.NoCapital m.1)
    (h : ∀ m ∈ ms, Canonical m.2) : Canonical (.object ms) := by
  intro us hus
  cases hus with
  | self => exact ⟨horder, hkeys⟩
  | member hin hm => exact h _ hm us hin

mutual

/-- A value with all keys in snake case is canonical. -/
theorem canonical_snakeKeys : ∀ v : Json, Canonical v.snakeKeys
  | .array items => by
      rw [snakeKeys]
      exact canonical_array (canonical_snakeKeysItems items)
  | .object ms => by
      rw [snakeKeys]
      have hmembers := canonical_snakeKeysMembers ms
      exact canonical_object (Members.inOrder_ofList _)
        (fun m hm => (hmembers m (Members.mem_of_mem_ofList hm)).1)
        (fun m hm => (hmembers m (Members.mem_of_mem_ofList hm)).2)
  | .null | .boolean _ | .number _ | .string _ => fun _ hms => nomatch hms

/-- `canonical_snakeKeys` for each item of an array. -/
theorem canonical_snakeKeysItems :
    ∀ items : List Json, ∀ w ∈ snakeKeysItems items, Canonical w
  | [] => by simp [snakeKeysItems]
  | v :: items => by
      rw [snakeKeysItems, List.forall_mem_cons]
      exact ⟨canonical_snakeKeys v, canonical_snakeKeysItems items⟩

/-- `canonical_snakeKeys` for each member of an object. -/
theorem canonical_snakeKeysMembers :
    ∀ ms : List (String × Json), ∀ m ∈ snakeKeysMembers ms, Key.NoCapital m.1 ∧ Canonical m.2
  | [] => by simp [snakeKeysMembers]
  | (key, v) :: ms => by
      rw [snakeKeysMembers, List.forall_mem_cons]
      exact ⟨⟨Key.noCapital_snake key, canonical_snakeKeys v⟩, canonical_snakeKeysMembers ms⟩

end

mutual

/-- A canonical value has all its keys in snake case. -/
theorem Canonical.snakeKeys_eq : ∀ {v : Json}, Canonical v → v.snakeKeys = v
  | .array items, h => by
      rw [snakeKeys, snakeKeysItems_eq_self fun w hw => h.inside (.item .self hw)]
  | .object ms, h => by
      obtain ⟨horder, hkeys⟩ := h ms .self
      have hvalues : ∀ m ∈ ms, Canonical m.2 := fun m hm => h.inside (.member .self hm)
      rw [snakeKeys, snakeKeysMembers_eq_self hkeys hvalues, Members.ofList_eq_self horder]
  | .null, _ | .boolean _, _ | .number _, _ | .string _, _ => rfl

/-- `Canonical.snakeKeys_eq` for each item of an array. -/
theorem snakeKeysItems_eq_self :
    ∀ {items : List Json}, (∀ w ∈ items, Canonical w) → snakeKeysItems items = items
  | [], _ => rfl
  | v :: items, h => by
      rw [List.forall_mem_cons] at h
      rw [snakeKeysItems, h.1.snakeKeys_eq, snakeKeysItems_eq_self h.2]

/-- `Canonical.snakeKeys_eq` for each member of an object. -/
theorem snakeKeysMembers_eq_self : ∀ {ms : List (String × Json)},
    (∀ m ∈ ms, Key.NoCapital m.1) → (∀ m ∈ ms, Canonical m.2) → snakeKeysMembers ms = ms
  | [], _, _ => rfl
  | (key, v) :: ms, hkeys, hvalues => by
      rw [List.forall_mem_cons] at hkeys hvalues
      rw [snakeKeysMembers, Key.snake_eq_self hkeys.1, hvalues.1.snakeKeys_eq,
        snakeKeysMembers_eq_self hkeys.2 hvalues.2]

end

/-! ### Collisions -/

/-- Of several spellings of a key in one object, the one in snake case wins. It comes last in the
order of the keys: behind it are only keys that are no spellings of it. -/
lemma get?_snakeKeys (horder : Members.InOrder ms) (hkey : Key.NoCapital key)
    (hv : Members.get? ms key = some v) :
    Members.get? (snakeKeys (.object ms)).members key = some v.snakeKeys := by
  obtain ⟨⟨k, u⟩, hfind, rfl⟩ := Option.map_eq_some_iff.mp hv
  obtain ⟨hk, before, after, rfl, -⟩ := List.find?_eq_some_iff_append.mp hfind
  obtain rfl : k = key := of_decide_eq_true hk
  have hafter : ∀ m ∈ after, Key.snake m.1 ≠ k := by
    intro m hm heq
    have hlt : k < m.1 :=
      (List.pairwise_cons.mp (List.pairwise_append.mp horder).2.1).1 m hm
    by_cases hself : Key.snake m.1 = m.1
    · exact absurd (hself.symm.trans heq) (ne_of_gt hlt)
    · exact absurd (heq ▸ Key.lt_snake hself) (lt_asymm hlt)
  rw [snakeKeys, members, Members.get?_ofList, snakeKeysMembers_eq_map, Members.get?,
    ← List.map_reverse, List.reverse_append, List.reverse_cons, List.map_append, List.map_append,
    List.find?_append, List.find?_append, List.find?_eq_none.mpr ?_]
  · simp [Key.snake_eq_self hkey]
  · intro m hm
    obtain ⟨n, hn, rfl⟩ := List.mem_map.mp hm
    simpa using hafter n (List.mem_reverse.mp hn)

end Json

/-- **Snake case is a normal form.** In a value whose keys have been put in snake case no key of any
object inside has a capital, putting its keys in snake case again changes nothing, and it is parsed
as the value itself is, with the same record or the same error. In every object inside a value, the
value under a key without a capital is what is found under that key afterwards, whatever other
spellings of the key there are. -/
theorem snakeKeys_canonical (v : Json) :
    (∀ ms, (Json.object ms).Inside v.snakeKeys → ∀ m ∈ ms, Key.NoCapital m.1) ∧
    v.snakeKeys.snakeKeys = v.snakeKeys ∧
    Record.parse v.snakeKeys = Record.parse v ∧
    (v.Sorted → ∀ ms, (Json.object ms).Inside v → ∀ key w, Key.NoCapital key →
      Members.get? ms key = some w →
        Members.get? (Json.object ms).snakeKeys.members key = some w.snakeKeys) := by
  have hcanonical : v.snakeKeys.Canonical := Json.canonical_snakeKeys v
  have hagain : v.snakeKeys.snakeKeys = v.snakeKeys := hcanonical.snakeKeys_eq
  refine ⟨fun ms hms => (hcanonical ms hms).2, hagain, ?_, ?_⟩
  · simp only [Record.parse, hagain]
  · intro hsorted ms hms key w hkey hw
    exact Json.get?_snakeKeys (hsorted.inOrder hms) hkey hw

/-- Of three spellings of a key inside an array, the one in snake case wins. -/
theorem snake_wins_of_three :
    let spellings : List (String × Json) :=
      [("BlockIndex", .ofNat 1), ("blockIndex", .ofNat 2), ("block_index", .ofNat 3)]
    let v : Json := .array [.null, .object spellings]
    v.Sorted ∧ (Json.object spellings).Inside v ∧ Key.NoCapital "block_index" ∧
      Members.get? spellings "block_index" = some (.ofNat 3) ∧
      Members.get? (Json.object spellings).snakeKeys.members "block_index" = some (.ofNat 3) := by
  intro spellings v
  have hsorted : v.Sorted := by
    simp only [v, spellings, Json.Sorted, Json.SortedItems, Json.SortedMembers,
      String.lt_iff_toList_lt, List.map_cons, List.map_nil]
    decide
  have hinside : (Json.object spellings).Inside v := .item .self (by simp)
  have hkey : Key.NoCapital "block_index" := by decide
  have hget : Members.get? spellings "block_index" = some (.ofNat 3) := by
    simp [spellings, Members.get?]
  exact ⟨hsorted, hinside, hkey, hget,
    (snakeKeys_canonical v).2.2.2 hsorted spellings hinside _ _ hkey hget⟩

end BridgeAudit
