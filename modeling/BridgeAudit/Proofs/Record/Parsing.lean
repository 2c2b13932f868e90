import BridgeAudit.Proofs.Record.Lawful

/-!
What a value is parsed as.

* `tellingFields`, `classifyMembers_congr`: the six fields that the shape depends on.
* `Record.parse_eq_ok_iff`: a value is parsed as what its shape decodes to.
* `Record.LaidOut`: a record is written and decoded by a layout; every record is by a lawful one.
-/

namespace BridgeAudit

variable {v : Json} {ms us : List (String × Json)} {r : Record}

/-- The fields that tell the shapes apart. -/
def tellingFields : List String :=
  ["audited", "mint", "burn", "mint_config_id", "deposit", "execution_date"]

/-- The shape depends on the telling fields only. -/
lemma classifyMembers_congr (h : ∀ name ∈ tellingFields, hasField ms name = hasField us name) :
    classifyMembers ms = classifyMembers us := by
  simp only [tellingFields, List.forall_mem_cons] at h
  obtain ⟨haudited, hmint, hburn, hconfig, hdeposit, hdate, -⟩ := h
  simp only [classifyMembers, haudited, hmint, hburn, hconfig, hdeposit, hdate]

namespace Record

/-- The shape of the encoding of a record is the shape of the record. -/
lemma classify_toJson (r : Record) : classify? r.toJson = some r.category := by
  cases r <;> rfl

/-- What is decoded as of a shape has that shape. -/
lemma category_of_decode {c : Category} (h : decode c v = .ok r) : r.category = c := by
  cases c <;> obtain ⟨a, -, rfl⟩ := map_eq_ok_iff.1 h <;> rfl

/-- A record is parsed as what the shape of the value decodes to. -/
lemma parse_eq_ok_iff :
    parse v = .ok r ↔
      classify? v.snakeKeys = some r.category ∧ decode r.category v.snakeKeys = .ok r := by
  constructor
  · intro h
    simp only [parse] at h
    split at h
    · cases h
    · next c hclass =>
        split at h
        · next hdecode =>
            cases h
            rw [category_of_decode hdecode]
            exact ⟨hclass, hdecode⟩
        · cases h
  · rintro ⟨hclass, hdecode⟩
    simp only [parse, hclass, hdecode]

/-- A record is a structure, written and decoded by a lawful layout; the shape in front of the
members is not mistaken for a field. -/
structure LaidOut {α : Type} (r : Record) (layout : Layout α) (a : α) : Prop where
  lawful : layout.Lawful
  members_eq : r.members = layout.members a
  decode_iff : ∀ v, decode r.category v = .ok r ↔ layout.read v = .ok a
  clear : Clear ("category" :: layout.table.fields)

/-- Every record is laid out. This is the only place where the six shapes are told apart. -/
lemma exists_laidOut (r : Record) :
    ∃ (α : Type) (layout : Layout α) (a : α), r.LaidOut layout a := by
  cases r with
  | auditedMint r =>
      exact ⟨_, _, r, AuditedMint.lawful, rfl, fun v => by simp [category, decode, map_eq_ok_iff],
        by decide⟩
  | auditedBurn r =>
      exact ⟨_, _, r, AuditedBurn.lawful, rfl, fun v => by simp [category, decode, map_eq_ok_iff],
        by decide⟩
  | unauditedMint r =>
      exact ⟨_, _, r, Mint.lawful, rfl, fun v => by simp [category, decode, map_eq_ok_iff],
        by decide⟩
  | unauditedBurn r =>
      exact ⟨_, _, r, UnauditedBurn.lawful, rfl, fun v => by simp [category, decode, map_eq_ok_iff],
        by decide⟩
  | unauditedDeposit r =>
      exact ⟨_, _, r, UnauditedDeposit.lawful, rfl,
        fun v => by simp [category, decode, map_eq_ok_iff], by decide⟩
  | unauditedWithdrawal r =>
      exact ⟨_, _, r, Withdrawal.lawful, rfl, fun v => by simp [category, decode, map_eq_ok_iff],
        by decide⟩

end Record

end BridgeAudit
