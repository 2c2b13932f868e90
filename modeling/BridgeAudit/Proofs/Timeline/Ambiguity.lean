import BridgeAudit.Proofs.Record.Structures
import BridgeAudit.Proofs.Timeline.Isolation

/-!
Fields that are there under both of their names.

* `Layout.Sound.given_of_read`: in an object that a structure is read from, each field has one
  member at most, and a readable one.
* `Scheme.NamedTwice`: the members of an object have both names of a field.
* `Decoded.read_ne_ok`: a record with such an object in it cannot be read.
* `ambiguous_names_refused`: it is malformed, and adds nothing to the timeline or to the totals.
-/

namespace BridgeAudit

variable {α τ : Type} {name other : String} {ms : List (String × Json)} {m : String × Json}
variable {c : Category} {s : Scheme} {v : Json}

/-- A field with a second name is one of the fields. -/
lemma Table.exists_column {table : Table τ} (h : (name, other) ∈ table.secondNames) :
    ∃ col ∈ table.columns, col.field.name = name ∧ col.field.otherName = some other := by
  induction table with
  | nil => exact absurd h List.not_mem_nil
  | cons f rest ih =>
      rw [secondNames, List.mem_append] at h
      rcases h with h | h
      · obtain ⟨_, hother, ⟨⟩⟩ := List.mem_map.1 h
        exact ⟨⟨f⟩, List.mem_cons_self, rfl, Option.mem_toList.1 hother⟩
      · obtain ⟨col, hcol, hnames⟩ := ih h
        exact ⟨col, List.mem_cons_of_mem _ hcol, hnames⟩

namespace Layout

variable {layout : Layout α} {a : α} {col : Column}

/-- In an object that a structure is read from, each field has one member at most, and a readable
one. -/
lemma Sound.given_of_read (h : layout.Sound) (hread : layout.read (.object ms) = .ok a)
    (hcol : col ∈ layout.table.columns) (hm : m ∈ col.field.given ms) :
    col.field.given ms = [m] ∧ ∃ b, col.field.codec.read m.2 = .ok b := by
  rw [← layout.table.map_column_cells (layout.parts a)] at hcol
  obtain ⟨cell, hcell, rfl⟩ := List.mem_map.1 hcol
  rcases h.read_object_iff.1 hread cell hcell with ⟨hnil, -⟩ | ⟨key, u, hone, hu⟩
  · exact absurd (hnil ▸ hm) List.not_mem_nil
  · obtain rfl : m = (key, u) := List.mem_singleton.1 (hone ▸ hm)
    exact ⟨hone, cell.value, hu⟩

/-- No structure is read from an object with both names of a field. -/
lemma Sound.read_ne_ok (h : layout.Sound) (hnames : (name, other) ∈ layout.table.secondNames)
    (hname : name ∈ ms.map (·.1)) (hother : other ∈ ms.map (·.1)) (a : α) :
    layout.read (.object ms) ≠ .ok a := by
  intro hread
  obtain ⟨col, hcol, rfl, hsecond⟩ := Table.exists_column hnames
  have hnodup : col.field.names.Nodup := (List.nodup_flatMap.1 h.nodup).1 col hcol
  obtain ⟨m, hm, hmname⟩ := List.mem_map.1 hname
  obtain ⟨n, hn, rfl⟩ := List.mem_map.1 hother
  have hgiven : ∀ x ∈ ms, x.1 ∈ col.field.names → x ∈ col.field.given ms := fun x hx hkey =>
    List.mem_filter.2 ⟨hx, Field.answersTo_iff.2 hkey⟩
  have hm' := hgiven m hm (hmname ▸ List.mem_cons_self)
  have hn' := hgiven n hn (by simp [Field.names, hsecond])
  -- both are the only member of the field
  rw [(h.given_of_read hread hcol hm').1, List.mem_singleton] at hn'
  rw [Field.names, hsecond, ← hmname, hn'] at hnodup
  simp at hnodup

end Layout

/-- Among the members of an object are both names of a field of the structure. -/
def Scheme.NamedTwice (s : Scheme) (ms : List (String × Json)) : Prop :=
  ∃ p ∈ s.layout.table.secondNames, p.1 ∈ ms.map (·.1) ∧ p.2 ∈ ms.map (·.1)

/-- A record with both names of a field, in itself or in a part, cannot be read. -/
lemma Decoded.read_ne_ok (h : Decoded c v s ms) (hnames : s.NamedTwice ms) (a : c.scheme.α) :
    c.scheme.layout.read v ≠ .ok a := by
  obtain ⟨⟨name, other⟩, hpair, hname, hother⟩ := hnames
  cases h with
  | whole => exact c.lawful.sound.read_ne_ok hpair hname hother a
  | @part _ _ field _ hpart hus =>
      intro hread
      have hgiven : (field, _) ∈ (s.heldBy field).field.given _ :=
        List.mem_filter.2 ⟨hus, s.answersTo_heldBy field⟩
      obtain ⟨-, b, hb⟩ := c.lawful.sound.given_of_read hread (Category.heldBy_mem hpart) hgiven
      exact (Category.lawful_of_mem_parts hpart).sound.read_ne_ok hpair hname hother b hb

/-- **Both names of a field.** If the keys of a value, once they are in snake case, tell a shape,
and an object that is decoded as a structure of that shape, the value itself or a part of it, has
both names of a field among its keys, then the value is malformed as of that shape, whatever the
values are and whatever else is there. Wherever it is served, it adds nothing to the timeline and
nothing to the totals. -/
theorem ambiguous_names_refused (hshape : classify? v.snakeKeys = some c)
    (hdecoded : Decoded c v.snakeKeys s ms) (hnames : s.NamedTwice ms) :
    (∃ fault, Record.parse v = .error (.malformed c fault)) ∧
      ∀ policy cycle raw now d i,
        let view := (reconcile policy cycle raw now).view
        let view' := (reconcile policy cycle (raw.insertAt d i v) now).view
        view'.timeline = view.timeline ∧ view'.totals = view.totals := by
  obtain ⟨fault, hfault⟩ := Record.exists_fault (hdecoded.read_ne_ok hnames)
  have hparse : Record.parse v = .error (.malformed c fault) := by
    simp only [Record.parse, hshape, hfault]
  refine ⟨⟨fault, hparse⟩, fun policy cycle raw now d i => ?_⟩
  simp only [reconcile, records_insertAt raw d i hparse, entries_insertAt raw d i hparse, and_self]

-- the fields with two names
example : secondNames = [("recipient_address", "recipient_b58_addr"),
    ("expected_mint_nonce_hex", "expected_mc_mint_tx_nonce_hex"),
    ("deposit_id", "gnosis_safe_deposit_id"), ("withdrawal_id", "gnosis_safe_withdrawal_id"),
    ("decoded_memo_bytes", "decoded_burn_memo_bytes")] := rfl

/-- An audited mint whose link names its deposit twice, once as `null`, in two spellings. -/
def twiceLinked : Json :=
  .object [("audited", .object [("depositId", .ofNat 2), ("gnosis_safe_deposit_id", .null)]),
    ("mint", .null)]

/-- It is malformed as an audited mint, and no view has it. -/
theorem twiceLinked_refused :
    let link : List (String × Json) := [("deposit_id", .ofNat 2), ("gnosis_safe_deposit_id", .null)]
    classify? twiceLinked.snakeKeys = some .auditedMint ∧
      Decoded .auditedMint twiceLinked.snakeKeys ⟨MintLink.layout⟩ link ∧
      (⟨MintLink.layout⟩ : Scheme).NamedTwice link ∧
      (∃ fault, Record.parse twiceLinked = .error (.malformed .auditedMint fault)) ∧
      (reconcile {} 1 (twoBurns.insertAt .auditedMints 0 twiceLinked) ⟨0, 0⟩).view.totals =
        (reconcile {} 1 twoBurns ⟨0, 0⟩).view.totals := by
  intro link
  have hkeys : twiceLinked.snakeKeys = .object [("audited", .object link), ("mint", .null)] := by
    rfl
  have hshape : classify? twiceLinked.snakeKeys = some .auditedMint := by decide
  have hdecoded : Decoded .auditedMint twiceLinked.snakeKeys ⟨MintLink.layout⟩ link := by
    rw [hkeys]
    exact .part List.mem_cons_self List.mem_cons_self
  have hnames : (⟨MintLink.layout⟩ : Scheme).NamedTwice link :=
    ⟨("deposit_id", "gnosis_safe_deposit_id"), List.mem_cons_self, by decide, by decide⟩
  obtain ⟨hfault, hview⟩ := ambiguous_names_refused hshape hdecoded hnames
  exact ⟨hshape, hdecoded, hnames, hfault, (hview {} 1 twoBurns ⟨0, 0⟩ .auditedMints 0).2⟩

end BridgeAudit
