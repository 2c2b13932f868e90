import BridgeAudit.Proofs.Record.Classification
import BridgeAudit.Proofs.Record.KnownFields
import BridgeAudit.Proofs.Timeline.Balance

/-!
Fields that no structure knows.

* `FieldAdded`: one more member, in a value or in an object inside that is decoded as a structure,
  whose key in snake case tells no shape and is no name of a field there.
* `DifferInUnknown`: the values that differ by any number of such members.
* `FieldAdded.decoded_eq`: one such member changes neither the shape of a value nor what it is
  decoded as, faults included.
* `view_of_decoded_eq`: raw records that are decoded alike make up the same view.
* `unknown_fields_ignored`: values that differ in unknown fields are parsed alike, and make up the
  same view.
-/

namespace BridgeAudit

variable {α : Type} {name key : String} {value : Json} {c : Category} {s : Scheme} {v w : Json}
variable {ms us before after front back : List (String × Json)}

/-- One more member in a value, or in an object inside that is decoded as a structure. In snake case
its key tells no shape, if it is in the value itself, and is no name of a field of the structure
that is decoded there. -/
inductive FieldAdded : Json → Json → Prop
  | whole (before after : List (String × Json)) (key : String) (value : Json)
      (tells : Key.snake key ∉ tellingFields)
      (unknown : ∀ c, classify? (Json.object (before ++ after)).snakeKeys = some c →
        Key.snake key ∉ c.scheme.names) :
      FieldAdded (.object (before ++ after)) (.object (before ++ (key, value) :: after))
  | part (front back before after : List (String × Json)) (holder key : String) (value : Json)
      {c : Category} {s : Scheme}
      (shape : classify? (Json.object
        (front ++ (holder, .object (before ++ after)) :: back)).snakeKeys = some c)
      (held : (Key.snake holder, s) ∈ c.parts) (unknown : Key.snake key ∉ s.names) :
      FieldAdded (.object (front ++ (holder, .object (before ++ after)) :: back))
        (.object (front ++ (holder, .object (before ++ (key, value) :: after)) :: back))

/-- The values differ in unknown fields only, of which any number is added or taken away. -/
def DifferInUnknown : Json → Json → Prop := Relation.EqvGen FieldAdded

/-! ### The shape -/

/-- The shape depends on which of the telling fields are among the keys in snake case. -/
lemma classify_snakeKeys_congr (h : ∀ name ∈ tellingFields,
    (∃ m ∈ ms, Key.snake m.1 = name) ↔ ∃ m ∈ us, Key.snake m.1 = name) :
    classify? (Json.object ms).snakeKeys = classify? (Json.object us).snakeKeys := by
  refine classifyMembers_congr fun name hname => ?_
  rw [Bool.eq_iff_iff, hasField_snakeKeys_iff (returns_of_telling name hname),
    hasField_snakeKeys_iff (returns_of_telling name hname), h name hname]

lemma FieldAdded.classify_eq (h : FieldAdded v w) :
    classify? v.snakeKeys = classify? w.snakeKeys := by
  cases h with
  | whole before after key value htells =>
      refine classify_snakeKeys_congr fun name hname => ?_
      have hkey : Key.snake key ≠ name := fun heq => htells (heq ▸ hname)
      simp [or_and_right, exists_or, hkey]
  | part front back before after holder key value =>
      refine classify_snakeKeys_congr fun name hname => ?_
      simp [or_and_right, exists_or]

/-! ### The structure -/

/-- A member that no field knows makes no difference to what is read. -/
lemma Layout.read_snakeKeys_insert {layout : Layout α} (h : Key.snake key ∉ layout.table.names) :
    layout.read (Json.object (before ++ after)).snakeKeys =
      layout.read (Json.object (before ++ (key, value) :: after)).snakeKeys := by
  refine read_snakeKeys_congr ?_
  have hknown : layout.table.known ((before ++ (key, value) :: after).map Json.snakeMember) =
      layout.table.known ((before ++ after).map Json.snakeMember) := by
    simp [Table.known, Json.snakeMember, h]
  rw [hknown]
  exact List.forall₂_same.2 fun m _ => .refl m

/-- The field that holds a part reads the part alike if its structure does. -/
lemma Category.readAlike_part (hpart : (name, s) ∈ c.parts)
    (h : s.layout.read v = s.layout.read w) :
    c.scheme.layout.table.ReadAlike (name, v) (name, w) := by
  refine ⟨rfl, fun col hcol hname => ?_⟩
  rw [Category.eq_heldBy hpart hcol hname]
  exact h

lemma FieldAdded.read_eq (h : FieldAdded v w) (hshape : classify? v.snakeKeys = some c) :
    c.scheme.layout.read v.snakeKeys = c.scheme.layout.read w.snakeKeys := by
  cases h with
  | whole before after key value _ hunknown =>
      exact Layout.read_snakeKeys_insert (hunknown c hshape)
  | @part front back before after holder key value d s hshape' hpart hunknown =>
      obtain rfl : d = c := Option.some.inj (hshape'.symm.trans hshape)
      have hheld : d.scheme.layout.table.ReadAlike
          (Json.snakeMember (holder, .object (before ++ after)))
          (Json.snakeMember (holder, .object (before ++ (key, value) :: after))) :=
        Category.readAlike_part hpart (Layout.read_snakeKeys_insert hunknown)
      have hself : ∀ ms, List.Forall₂ d.scheme.layout.table.ReadAlike ms ms := fun ms =>
        List.forall₂_same.2 fun m _ => .refl m
      refine Layout.read_snakeKeys_congr (Table.forall₂_known ?_)
      rw [List.map_append, List.map_append, List.map_cons, List.map_cons]
      exact List.rel_append (hself _) (.cons hheld (hself _))

/-! ### Parsing -/

/-- The shape of a value, if it has one, and what it is decoded as. -/
def decoded? (v : Json) : Option (Category × Except Fault Record) :=
  (classify? v.snakeKeys).map fun c => (c, Record.decode c v.snakeKeys)

/-- One more unknown field changes neither the shape of a value nor what it is decoded as. -/
lemma FieldAdded.decoded_eq (h : FieldAdded v w) : decoded? v = decoded? w := by
  rw [decoded?, decoded?, ← h.classify_eq]
  cases hshape : classify? v.snakeKeys with
  | none => rfl
  | some c => rw [Option.map_some, Option.map_some, Record.decode_congr (h.read_eq hshape)]

lemma DifferInUnknown.decoded_eq (h : DifferInUnknown v w) : decoded? v = decoded? w := by
  induction h with
  | rel _ _ h => exact h.decoded_eq
  | refl _ => rfl
  | symm _ _ _ ih => exact ih.symm
  | trans _ _ _ _ _ ih ih' => exact ih.trans ih'

/-- Values of one shape that are decoded alike are parsed alike, and so are values without any. -/
lemma parse_of_decoded_eq (h : decoded? v = decoded? w) : Record.parse v = Record.parse w ∨
    Record.parse v = .error (.unclassifiable v.snakeKeys) ∧
      Record.parse w = .error (.unclassifiable w.snakeKeys) := by
  rw [decoded?, decoded?] at h
  cases hv : classify? v.snakeKeys with
  | none =>
      have hw : classify? w.snakeKeys = none := by simpa [hv] using h
      exact .inr ⟨Record.classify_snakeKeys_eq_none_iff.1 hv,
        Record.classify_snakeKeys_eq_none_iff.1 hw⟩
  | some c =>
      obtain ⟨d, hw, heq⟩ := Option.map_eq_some_iff.1 (h.symm.trans (by rw [hv, Option.map_some]))
      obtain ⟨rfl, hdecode⟩ := Prod.mk.inj heq
      refine .inl ?_
      simp only [Record.parse, hv, hw, hdecode]

lemma toOption_of_decoded_eq (h : decoded? v = decoded? w) :
    (Record.parse v).toOption = (Record.parse w).toOption := by
  rcases parse_of_decoded_eq h with heq | ⟨hv, hw⟩
  · rw [heq]
  · rw [hv, hw]
    rfl

/-! ### Views -/

/-- What is made of the items of two lists is the same if it is the same item by item. -/
lemma filterMap_eq_of_forall₂ {α β : Type} {f : α → Option β} {as bs : List α}
    (h : List.Forall₂ (fun a b => f a = f b) as bs) : as.filterMap f = bs.filterMap f := by
  induction h with
  | nil => rfl
  | cons hab _ ih => rw [List.filterMap_cons, List.filterMap_cons, hab, ih]

/-- Raw records that are decoded alike make up the same view. -/
lemma view_of_decoded_eq {raw raw' : Collections Json}
    (h : ∀ c, List.Forall₂ (fun v w => decoded? v = decoded? w) (raw.get c) (raw'.get c))
    (policy : Policy) (cycle : Nat) (now : Instant) :
    (reconcile policy cycle raw now).view = (reconcile policy cycle raw' now).view := by
  have hrecords : (ingest raw).records = (ingest raw').records := Collections.ext fun c => by
    rw [(takenIn_get raw c).records_eq, (takenIn_get raw' c).records_eq]
    exact filterMap_eq_of_forall₂ ((h c).imp fun _ _ => toOption_of_decoded_eq)
  have hentries : (ingest raw).entries = (ingest raw').entries := Collections.ext fun c => by
    rw [(takenIn_get raw c).entries_eq, (takenIn_get raw' c).entries_eq, hrecords]
  have hsize : raw.size = raw'.size := by
    rw [Collections.size_eq_sum, Collections.size_eq_sum]
    exact congrArg List.sum (List.map_congr_left fun c _ => (h c).length_eq)
  have hrejected : (ingest raw).rejected.length = (ingest raw').rejected.length := by
    have hsum := size_entries_add_rejected raw
    have hsum' := size_entries_add_rejected raw'
    rw [hentries] at hsum
    omega
  simp only [reconcile, hrecords, hentries, hsize, hrejected]

/-- **Unknown fields change nothing.** If two values differ only in fields that tell no shape and
that the structures in their places do not know, then they are parsed as the same record, or they
are malformed as of the same shape and for the same fault, or neither has a shape. If the raw
records of two cycles differ only so, one by one, the two views have the same timeline, totals and
counts. -/
theorem unknown_fields_ignored :
    (∀ v w, DifferInUnknown v w → Record.parse v = Record.parse w ∨
      Record.parse v = .error (.unclassifiable v.snakeKeys) ∧
        Record.parse w = .error (.unclassifiable w.snakeKeys)) ∧
      ∀ policy cycle raw raw' now,
        (∀ c, List.Forall₂ DifferInUnknown (raw.get c) (raw'.get c)) →
          (reconcile policy cycle raw now).view = (reconcile policy cycle raw' now).view :=
  ⟨fun _ _ h => parse_of_decoded_eq h.decoded_eq, fun policy cycle _ _ now h =>
    view_of_decoded_eq (fun c => (h c).imp fun _ _ => DifferInUnknown.decoded_eq) policy cycle now⟩

/-- A burn with two more fields: one in itself that its part would know, and one in its part that
would tell a shape in the burn itself. -/
def notedBurn : Json :=
  .object [("blockIndex", .null), ("burn", .object [("amount", .ofNat 5), ("block_index", .ofNat 1),
    ("block_timestamp", .string "2023-02-26"), ("executionDate", .string ""),
    ("public_key_hex", .string ""), ("token_id", .ofNat 1)])]

/-- It is parsed as the burn without them, and adds the same to the totals. -/
theorem notedBurn_unchanged :
    let burn := servedBurn 1 5 (.string "2023-02-26")
    let view := (reconcile {} 1 { unauditedBurns := [burn] } ⟨0, 0⟩).view
    let view' := (reconcile {} 1 { unauditedBurns := [notedBurn] } ⟨0, 0⟩).view
    DifferInUnknown burn notedBurn ∧ Record.parse burn = Record.parse notedBurn ∧
      view = view' ∧ view.totals = ⟨0, 5⟩ := by
  intro burn view view'
  have hinner : FieldAdded burn _ :=
    .part [] [] [("amount", .ofNat 5), ("block_index", .ofNat 1),
      ("block_timestamp", .string "2023-02-26")] _ "burn" "executionDate" (.string "")
      (by decide : _ = some .unauditedBurn) List.mem_cons_self (by decide +kernel)
  have houter : FieldAdded _ notedBurn :=
    .whole [] _ "blockIndex" .null (by decide) (by decide +kernel)
  have hdiffer : DifferInUnknown burn notedBurn := .trans _ _ _ (.rel _ _ hinner) (.rel _ _ houter)
  have hshape : classify? burn.snakeKeys = some .unauditedBurn := by decide
  have hclassified : Record.parse burn ≠ .error (.unclassifiable burn.snakeKeys) := fun h => by
    rw [Record.classify_snakeKeys_eq_none_iff.2 h] at hshape
    cases hshape
  have hparse := (unknown_fields_ignored.1 burn notedBurn hdiffer).resolve_right
    fun h => hclassified h.1
  have hraw : ∀ c, List.Forall₂ DifferInUnknown
      (({ unauditedBurns := [burn] } : Collections Json).get c)
      (({ unauditedBurns := [notedBurn] } : Collections Json).get c) := by
    intro c
    cases c with
    | unauditedBurns => exact .cons hdiffer .nil
    | _ => exact .nil
  exact ⟨hdiffer, hparse, unknown_fields_ignored.2 {} 1 _ _ ⟨0, 0⟩ hraw, by decide⟩

end BridgeAudit
