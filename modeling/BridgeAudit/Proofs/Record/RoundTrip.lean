import BridgeAudit.Proofs.Record.Parsing

/-!
A record is read back from every spelling of its encoding.

* `Codec.Recovers`: a codec that reads back what it has written, however it is respelled.
* `Codec.Lawful.recovers`: lawful codecs do, by induction on how they are made.
* `classifyMembers_renamed`: respelling keeps the shape.
* `parse_respelled`: every spelling of the encoding of a record parses to that record.
-/

namespace BridgeAudit

variable {α : Type} {v : Json} {ms us ks : List (String × Json)} {r : Record}

/-! ### Structures -/

/-- The codec reads back what it has written, however its names are respelled. -/
def Codec.Recovers (c : Codec α) : Prop :=
  ∀ a v, Respelled (c.write a) v → c.read v.snakeKeys = .ok a

lemma givenFor_perm {name : String} {u : String × Json} (hperm : ks.Perm us)
    (h : givenFor name us = [u]) : givenFor name ks = [u] := by
  have hfilter : (givenFor name ks).Perm (givenFor name us) := hperm.filter _
  rw [h] at hfilter
  exact List.perm_singleton.1 hfilter

/-- A structure is recovered from any object that lists its members, respelled, among others. -/
lemma Layout.WellFormed.read_respelled {layout : Layout α} {a : α} (h : layout.WellFormed)
    (fields : ∀ c ∈ layout.table.columns, c.field.codec.Recovers)
    (hsub : layout.members a ⊆ ms) (hc : Clear (ms.map (·.1))) (hv : Respelled (.object ms) v) :
    layout.read v.snakeKeys = .ok a := by
  obtain ⟨us, ks, hus, hperm, hks⟩ := hv.renamed hc
  rw [hks, h.sound.read_object_iff]
  intro c hcell
  have hmember : c.member ∈ ms := by
    apply hsub
    rw [layout.members_eq_map]
    exact List.mem_map_of_mem hcell
  obtain ⟨⟨key, x⟩, hgiven, -, w, hw, hx⟩ := Renamed.exists_givenFor hus hc hmember
  right
  refine ⟨key, x, ?_, ?_⟩
  · rw [h.given_eq hcell]
    exact givenFor_perm hperm hgiven
  · have hread := fields _ (layout.column_mem hcell) c.value w hw
    rwa [← hx] at hread

/-- Lawful codecs read back what they have written, however it is respelled. -/
theorem Codec.Lawful.recovers {c : Codec α} (h : c.Lawful) : c.Recovers := by
  induction h with
  | exact h =>
      intro a v hv
      rw [hv.eq_of_not_isObject (h.isObject_write a), h.snakeKeys_write a]
      exact (h.read_iff _ _).2 rfl
  | layout h _ ih =>
      intro a v hv
      refine h.read_respelled ih (List.Subset.refl _) ?_ hv
      rw [Layout.map_fst_members]
      exact h.fits.clear

/-- A structure is recovered from its members among others. -/
lemma Layout.Lawful.recovers {layout : Layout α} {a : α} (h : layout.Lawful)
    (hsub : layout.members a ⊆ ms) (hc : Clear (ms.map (·.1))) (hv : Respelled (.object ms) v) :
    layout.read v.snakeKeys = .ok a :=
  h.read_respelled (fun c hcolumn => (h.fields c hcolumn).recovers) hsub hc hv

/-! ### Shapes -/

/-- Telling fields have one name only, in either spelling. -/
lemma isSole_of_telling : ∀ name ∈ tellingFields, IsSole name ∧ IsSole (Key.camel name) := by
  decide

/-- Renaming members does not change the shape. -/
lemma classifyMembers_renamed (h : List.Forall₂ Renamed ms us) (hperm : ks.Perm us) :
    classifyMembers ks = classifyMembers ms := by
  refine classifyMembers_congr fun name hname => ?_
  have hhas : ∀ key, IsSole key → Members.has ks key = Members.has ms key := by
    intro key hkey
    refine Members.has_congr ?_
    rw [(hperm.map _).mem_iff]
    exact Renamed.mem_keys_iff h hkey
  obtain ⟨hsnake, hcamel⟩ := isSole_of_telling name hname
  rw [hasField, hasField, hhas _ hsnake, hhas _ hcamel]

/-! ### Records -/

/-- The encoding of a record, as it is, is parsed as that record. -/
lemma Record.parse_toJson (r : Record) : Record.parse r.toJson = .ok r := by
  obtain ⟨α, layout, a, hlaid⟩ := r.exists_laidOut
  have hkeys : r.toJson.members.map (·.1) = "category" :: layout.table.fields := by
    rw [toJson, Json.members, List.map_cons, hlaid.members_eq, Layout.map_fst_members]
  have hc : Clear (r.toJson.members.map (·.1)) := hkeys ▸ hlaid.clear
  have hsub : layout.members a ⊆ r.toJson.members :=
    hlaid.members_eq ▸ List.subset_cons_self _ _
  have hspelt : Respelled (.object r.toJson.members) r.toJson := Respelled.refl r.toJson
  obtain ⟨us, ks, hus, hperm, hks⟩ := hspelt.renamed hc
  have hshape : classify? r.toJson.snakeKeys = some r.category := by
    rw [hks]
    exact (classifyMembers_renamed hus hperm).trans r.classify_toJson
  exact parse_eq_ok_iff.2
    ⟨hshape, (hlaid.decode_iff _).2 (hlaid.lawful.recovers hsub hc hspelt)⟩

/-- **Decoding undoes encoding.** The encoding of a record, with each field name in it replaced
by any accepted spelling and the members of each object in any order, is parsed as that
record. -/
theorem parse_respelled (h : Respelled r.toJson v) : Record.parse v = .ok r := by
  obtain ⟨α, layout, a, hlaid⟩ := r.exists_laidOut
  have hc : Clear (r.toJson.members.map (·.1)) := by
    rw [Record.toJson, Json.members, List.map_cons, hlaid.members_eq, Layout.map_fst_members]
    exact hlaid.clear
  rw [Record.parse_eq_ok_iff]
  constructor
  · obtain ⟨us, ks, hus, hperm, hks⟩ := h.renamed hc
    calc classify? v.snakeKeys = classifyMembers ks := by rw [hks]; rfl
      _ = classifyMembers r.toJson.members := classifyMembers_renamed hus hperm
      _ = some r.category := r.classify_toJson
  · rw [hlaid.decode_iff]
    refine hlaid.lawful.recovers ?_ hc h
    rw [← hlaid.members_eq]
    exact List.subset_cons_self _ _

/-- A burn with its memo. -/
def memoBurn : Record :=
  .unauditedBurn ⟨⟨none, 7, some "2023-02-26", 1, 250, "0a1b"⟩, [79, 75]⟩

/-- The burn with some of its names in camel case, the second name of the memo, and the burn in
front. -/
def memoBurnInCamel : Json :=
  .object [
    ("burn", .object [("id", .null), ("blockIndex", .ofNat 7),
      ("blockTimestamp", .string "2023-02-26"), ("token_id", .ofNat 1), ("amount", .ofNat 250),
      ("publicKeyHex", .string "0a1b")]),
    ("category", .string "unaudited_burn"),
    ("decodedBurnMemoBytes", .array [.ofNat 79, .ofNat 75])]

theorem parse_memoBurnInCamel :
    Respelled memoBurn.toJson memoBurnInCamel ∧ Record.parse memoBurnInCamel = .ok memoBurn := by
  have hburn : Respelled (Burn.layout.codec.write ⟨none, 7, some "2023-02-26", 1, 250, "0a1b"⟩)
      (.object [("id", .null), ("blockIndex", .ofNat 7), ("blockTimestamp", .string "2023-02-26"),
        ("token_id", .ofNat 1), ("amount", .ofNat 250), ("publicKeyHex", .string "0a1b")]) := by
    refine .object ?_ ?_ (List.Perm.refl _)
    · repeat' first | exact .nil | refine .cons (by decide) ?_
    · repeat' first | exact .nil | refine .cons (.same rfl) ?_
  have hrespelled : Respelled memoBurn.toJson memoBurnInCamel := by
    refine .object ?_ ?_ (List.Perm.swap _ _ _)
    · repeat' first | exact .nil | refine .cons (by decide) ?_
    · exact .cons (.same rfl) (.cons hburn (.cons (.same rfl) .nil))
  exact ⟨hrespelled, parse_respelled hrespelled⟩

end BridgeAudit
