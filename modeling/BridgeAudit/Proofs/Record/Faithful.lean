import BridgeAudit.Proofs.Record.Parsing

/-!
A record says what the value says that it is parsed from.

* `Restates`: an encoding says anew what a value says, without members that belong to no field,
  under first names only, and with a default for each field that is not given.
* `Nests`: the structures that are read from a value are given as objects there.
* `Codec.Restated`: a codec that invents nothing, shown of lawful codecs in
  `Codec.Lawful.restated`.
* `parse_restates`: a record restates the value that it is parsed from.
-/

namespace BridgeAudit

variable {α : Type} {v : Json} {ms ws : List (String × Json)} {r : Record}

/-- The encoding `e` says anew what the value `v` says: no field is given twice in `v`, the
encoding of a field is what is given for it, a field that is not given is assumed, and only
optional fields are `null`. Other members of `v` do not count. -/
inductive Restates : Json → Json → Prop
  | object {ms ws : List (String × Json)} (once : ∀ m ∈ ms, (givenFor m.1 ws).length ≤ 1)
      (given : ∀ m ∈ ms, ∀ w ∈ givenFor m.1 ws, Restates m.2 w.2)
      (absent : ∀ m ∈ ms, givenFor m.1 ws = [] → Assumed m.1 m.2)
      (null : ∀ m ∈ ms, m.2 = .null → m.1 ∈ optionalFields) :
      Restates (.object ms) (.object ws)
  | same {v : Json} (h : v.isObject = false) : Restates v v

/-- Where the encoding `e` has an object, the value `v` gives one. -/
inductive Nests : Json → Json → Prop
  | object {ms ws : List (String × Json)}
      (given : ∀ m ∈ ms, ∀ w ∈ givenFor m.1 ws, Nests m.2 w.2) :
      Nests (.object ms) (.object ws)
  | other {e v : Json} (h : e.isObject = false) : Nests e v

/-! ### Structures -/

/-- What the codec reads says just what the value says, where structures are given as
objects. -/
def Codec.Restated (c : Codec α) : Prop :=
  ∀ v a, c.read v = .ok a → Nests (c.write a) v → Restates (c.write a) v

lemma Layout.WellFormed.restates {layout : Layout α} {a : α} (h : layout.WellFormed)
    (fields : ∀ c ∈ layout.table.columns, c.field.codec.Restated)
    (hread : layout.read (.object ws) = .ok a)
    (hnests : ∀ m ∈ layout.members a, ∀ w ∈ givenFor m.1 ws, Nests m.2 w.2) :
    Restates (.object (layout.members a)) (.object ws) := by
  rw [layout.members_eq_map, List.forall_mem_map] at hnests
  -- each field is given once and read from there, or not given and assumed
  have hcell : ∀ c ∈ layout.cells a,
      (givenFor c.field.name ws = [] ∧ Assumed c.field.name (c.field.codec.write c.value)) ∨
        ∃ w, givenFor c.field.name ws = [w] ∧ Restates (c.field.codec.write c.value) w.2 := by
    intro c hc
    have hcolumn := layout.column_mem hc
    obtain ⟨hnil, hdefault⟩ | ⟨key, x, hone, hx⟩ := h.sound.read_object_iff.1 hread c hc
    · rw [h.given_eq hc] at hnil
      exact .inl ⟨hnil, h.assumed _ hcolumn _ hdefault⟩
    · rw [h.given_eq hc] at hone
      have hmem : (key, x) ∈ givenFor c.field.name ws := by
        rw [hone]
        exact List.mem_singleton_self _
      exact .inr ⟨_, hone, fields _ hcolumn _ _ hx (hnests c hc _ hmem)⟩
  rw [layout.members_eq_map]
  constructor <;> rw [List.forall_mem_map] <;> intro c hc
  · obtain ⟨hnil, -⟩ | ⟨w, hone, -⟩ := hcell c hc
    · simp [Cell.member, hnil]
    · simp [Cell.member, hone]
  · intro w hw
    obtain ⟨hnil, -⟩ | ⟨w', hone, hw'⟩ := hcell c hc
    · rw [Cell.member, hnil] at hw
      exact absurd hw List.not_mem_nil
    · rw [Cell.member, hone] at hw
      obtain rfl := List.mem_singleton.1 hw
      exact hw'
  · intro hnil
    obtain ⟨-, hassumed⟩ | ⟨w, hone, -⟩ := hcell c hc
    · exact hassumed
    · exact absurd (hone.symm.trans hnil) (List.cons_ne_nil _ _)
  · exact h.null _ (layout.column_mem hc) c.value

/-- What a lawful codec reads says just what the value says. -/
theorem Codec.Lawful.restated {c : Codec α} (h : c.Lawful) : c.Restated := by
  induction h with
  | exact h =>
      intro v a hread _
      rw [(h.read_iff v a).1 hread]
      exact .same (h.isObject_write a)
  | @layout _ layout h _ ih =>
      intro v a hread hnests
      have hnests : Nests (.object (layout.members a)) v := hnests
      cases hnests with
      | object hgiven => exact h.restates ih hread hgiven
      | other hno => cases hno

/-! ### Records -/

/-- **Parsing invents and rounds nothing.** A record whose structures are given as objects has
the shape that the value has, and says just what the value says once its keys are in snake case. -/
theorem parse_restates (h : Record.parse v = .ok r)
    (hnests : Nests (.object r.members) v.snakeKeys) :
    classify? v.snakeKeys = some r.category ∧ Restates (.object r.members) v.snakeKeys := by
  obtain ⟨hclass, hdecode⟩ := Record.parse_eq_ok_iff.1 h
  refine ⟨hclass, ?_⟩
  obtain ⟨α, layout, a, hlaid⟩ := r.exists_laidOut
  rw [hlaid.members_eq] at hnests ⊢
  exact hlaid.lawful.codec.restated _ _ ((hlaid.decode_iff _).1 hdecode) hnests

/-- A burn that is served with a member too many, under second names, and without what may be
absent. -/
def sparseBurn : Json :=
  .object [
    ("burn", .object [("amount", .ofNat 250), ("blockIndex", .ofNat 7),
      ("chain", .string "main"), ("publicKeyHex", .string "0a1b"), ("tokenId", .ofNat 1)]),
    ("decodedBurnMemoBytes", .array [.ofNat 79, .ofNat 75])]

/-- The record that it is parsed as. -/
def sparseRecord : Record := .unauditedBurn ⟨⟨none, 7, none, 1, 250, "0a1b"⟩, [79, 75]⟩

theorem sparseRecord_restates :
    Record.parse sparseBurn = .ok sparseRecord ∧
      Nests (.object sparseRecord.members) sparseBurn.snakeKeys ∧
      classify? sparseBurn.snakeKeys = some sparseRecord.category ∧
      Restates (.object sparseRecord.members) sparseBurn.snakeKeys := by
  have hparse : Record.parse sparseBurn = .ok sparseRecord := rfl
  have hnests : Nests (.object sparseRecord.members) sparseBurn.snakeKeys := by
    refine .object (List.forall_mem_cons.2 ⟨?_, List.forall_mem_singleton.2 ?_⟩)
    · intro w hw
      obtain rfl := List.mem_singleton.1 hw
      have hflat : ∀ m ∈ Burn.layout.members ⟨none, 7, none, 1, 250, "0a1b"⟩,
          m.2.isObject = false := by decide
      exact .object fun m hm _ _ => .other (hflat m hm)
    · intro w _
      exact .other rfl
  exact ⟨hparse, hnests, parse_restates hparse hnests⟩

end BridgeAudit
