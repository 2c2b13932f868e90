import BridgeAudit.Proofs.Record.Reading
import BridgeAudit.Proofs.Record.Spelling

/-!
What all structures of the records have in common.

* `Codec.Exact`: a codec without structures in it, which reads just what it writes.
* `Layout.WellFormed`: a layout whose names fit those of all structures, with no defaults but
  the absent value and the empty memo.
* `Codec.Lawful`, `Layout.Lawful`: what is made of exact codecs by well-formed layouts. What holds
  of the former and is handed on by the latter holds of all structures, by induction on
  `Codec.Lawful`.
* `Mint.lawful` and so on: the ten structures are lawful.
-/

namespace BridgeAudit

variable {α : Type} {v : Json} {ms : List (String × Json)}

/-! ### Exact codecs -/

/-- A codec that reads exactly what it writes, and writes no keys. -/
structure Codec.Exact (c : Codec α) : Prop where
  read_iff : ∀ v a, c.read v = .ok a ↔ v = c.write a
  isObject_write : ∀ a, (c.write a).isObject = false
  snakeKeys_write : ∀ a, (c.write a).snakeKeys = c.write a

namespace Codec

lemma integerIn_eq_ok_iff {wanted : String} {low high i : Int} :
    integerIn wanted low high v = .ok i ↔ v = .ofInt i ∧ low ≤ i ∧ i < high := by
  constructor
  · intro h
    unfold integerIn at h
    split at h
    · split at h
      · cases h
        exact ⟨rfl, ‹_›⟩
      · cases h
    · cases h
  · rintro ⟨rfl, hi⟩
    exact if_pos hi

/-- Integers in a range are read and written exactly if the range is that of the type. -/
lemma exact_integerIn {wanted : String} {low high : Int} {ofInt : Int → α} {toInt : α → Int}
    (bounds : ∀ a, low ≤ toInt a ∧ toInt a < high) (ofInt_toInt : ∀ a, ofInt (toInt a) = a)
    (toInt_ofInt : ∀ i, low ≤ i → i < high → toInt (ofInt i) = i) :
    Exact ⟨fun v => (integerIn wanted low high v).map ofInt, fun a => .ofInt (toInt a)⟩ where
  read_iff v a := by
    show (integerIn wanted low high v).map ofInt = .ok a ↔ v = .ofInt (toInt a)
    rw [map_eq_ok_iff]
    constructor
    · rintro ⟨i, hv, rfl⟩
      obtain ⟨rfl, hlow, hhigh⟩ := integerIn_eq_ok_iff.1 hv
      rw [toInt_ofInt i hlow hhigh]
    · rintro rfl
      exact ⟨toInt a, integerIn_eq_ok_iff.2 ⟨rfl, bounds a⟩, ofInt_toInt a⟩
  isObject_write _ := rfl
  snakeKeys_write _ := by simp only [Json.snakeKeys]

lemma word_exact : word.Exact := by
  refine exact_integerIn (fun n => ?_) (fun n => ?_) (fun i hlow hhigh => ?_)
  · have hlt := n.toNat_lt
    rw [show Bits.bound 64 = 2 ^ 64 from rfl]
    omega
  · rw [Int.toNat_natCast, UInt64.ofNat_toNat]
  · rw [show Bits.bound 64 = 2 ^ 64 from rfl] at hhigh
    have hlt : i.toNat < UInt64.size := by
      rw [UInt64.size]
      omega
    rw [UInt64.toNat_ofNat_of_lt' hlt, Int.toNat_of_nonneg hlow]

lemma signed_exact : signed.Exact := by
  refine exact_integerIn (fun n => ?_) (fun n => Int64.ofInt_toInt n) (fun i hlow hhigh => ?_)
  · exact ⟨n.le_toInt, n.toInt_lt⟩
  · exact Int64.toInt_ofInt_of_le hlow hhigh

lemma byte_exact : byte.Exact := by
  refine exact_integerIn (fun n => ?_) (fun n => ?_) (fun i hlow hhigh => ?_)
  · have hlt := n.toNat_lt
    omega
  · rw [Int.toNat_natCast, UInt8.ofNat_toNat]
  · have hlt : i.toNat < UInt8.size := by
      rw [UInt8.size]
      omega
    rw [UInt8.toNat_ofNat_of_lt' hlt, Int.toNat_of_nonneg hlow]

lemma text_exact : text.Exact where
  read_iff v s := by cases v <;> simp [text]
  isObject_write _ := rfl
  snakeKeys_write _ := by simp only [text, Json.snakeKeys]

/-- Items are read exactly if each of them is. -/
lemma Exact.mapM_read_iff {c : Codec α} (h : c.Exact) {items : List Json} {as : List α} :
    items.mapM c.read = .ok as ↔ items = as.map c.write := by
  induction items generalizing as with
  | nil => cases as <;> simp [pure, Except.pure]
  | cons v vs ih =>
      rw [List.mapM_cons, bind_eq_ok_iff]
      constructor
      · rintro ⟨a, ha, hrest⟩
        obtain ⟨bs, hbs, hlist⟩ := bind_eq_ok_iff.1 hrest
        cases hlist
        rw [List.map_cons, (h.read_iff v a).1 ha, ih.1 hbs]
      · intro hlist
        cases as with
        | nil => cases hlist
        | cons a bs =>
            rw [List.map_cons, List.cons.injEq] at hlist
            exact ⟨a, (h.read_iff v a).2 hlist.1, bind_eq_ok_iff.2 ⟨bs, ih.2 hlist.2, rfl⟩⟩

lemma bytes_exact : bytes.Exact where
  read_iff v bs := by
    cases v with
    | array items =>
        show items.mapM byte.read = .ok bs ↔ Json.array items = .array (bs.map byte.write)
        rw [byte_exact.mapM_read_iff, Json.array.injEq]
    | _ => simp [bytes]
  isObject_write _ := rfl
  snakeKeys_write bs := by
    have hitems : (bs.map byte.write).map Json.snakeKeys = bs.map byte.write := by
      rw [List.map_map]
      exact List.map_congr_left fun b _ => byte_exact.snakeKeys_write b
    rw [bytes, Json.snakeKeys, Json.snakeKeysItems_eq_map, hitems]

lemma optional_read_of_ne (c : Codec α) (h : v ≠ .null) :
    c.optional.read v = (c.read v).map some := by
  cases v with
  | null => exact absurd rfl h
  | _ => rfl

lemma Exact.optional {c : Codec α} (h : c.Exact) (hne : ∀ a, c.write a ≠ .null) :
    c.optional.Exact where
  read_iff v a := by
    by_cases hv : v = .null
    · cases a with
      | none => exact iff_of_true (by rw [hv]; rfl) hv
      | some a =>
          refine iff_of_false ?_ fun hw => hne a (hw.symm.trans hv)
          rw [hv]
          exact fun hread => nomatch hread
    · rw [optional_read_of_ne c hv, map_eq_ok_iff]
      constructor
      · rintro ⟨b, hb, rfl⟩
        exact (h.read_iff v b).1 hb
      · intro hw
        cases a with
        | none => exact absurd hw hv
        | some b => exact ⟨b, (h.read_iff v b).2 hw, rfl⟩
  isObject_write a := by
    cases a with
    | none => rfl
    | some a => exact h.isObject_write a
  snakeKeys_write a := by
    cases a with
    | none => simp only [Codec.optional, Json.snakeKeys]
    | some a => exact h.snakeKeys_write a

end Codec

/-! ### Lawful layouts -/

/-- What a field says that is not given: that it is absent, and of a memo that it is empty. -/
def Assumed (name : String) (e : Json) : Prop :=
  e = .null ∨ name = "decoded_memo_bytes" ∧ e = .array []

/-- The fields that may be absent. -/
@[simp] def optionalFields : List String :=
  ["id", "block_timestamp", "mint_config_id", "execution_date", "from_addr", "to_addr"]

/-- The names of the fields of a table. -/
def Table.fields {τ : Type} (table : Table τ) : List String :=
  table.columns.map (·.field.name)

/-- A table whose names fit those of all structures and can be told apart. -/
structure Table.Fits {τ : Type} (table : Table τ) : Prop where
  names_eq : ∀ c ∈ table.columns, c.field.names = fieldNames c.field.name
  clear : Clear table.fields

instance {τ : Type} (table : Table τ) : Decidable table.Fits :=
  decidable_of_iff
    ((∀ c ∈ table.columns, c.field.names = fieldNames c.field.name) ∧ Clear table.fields)
    ⟨fun h => ⟨h.1, h.2⟩, fun h => ⟨h.1, h.2⟩⟩

/-- A layout that puts together what it takes apart, with names that fit, with no defaults but
the absent value and the empty memo, and with no `null` but for an optional field. -/
structure Layout.WellFormed (layout : Layout α) : Prop where
  parts_build : ∀ row, layout.parts (layout.build row) = row
  build_parts : ∀ a, layout.build (layout.parts a) = a
  fits : layout.table.Fits
  assumed : ∀ c ∈ layout.table.columns, ∀ a, c.field.default = some a →
    Assumed c.field.name (c.field.codec.write a)
  null : ∀ c ∈ layout.table.columns, ∀ a, c.field.codec.write a = .null →
    c.field.name ∈ optionalFields

/-- A codec made of exact codecs by lawful layouts. -/
inductive Codec.Lawful : {α : Type} → Codec α → Prop
  | exact {α : Type} {c : Codec α} (h : c.Exact) : Lawful c
  | layout {α : Type} {layout : Layout α} (h : layout.WellFormed)
      (fields : ∀ c ∈ layout.table.columns, Lawful c.field.codec) : Lawful layout.codec

/-- A well-formed layout of lawful codecs. -/
structure Layout.Lawful (layout : Layout α) : Prop extends layout.WellFormed where
  fields : ∀ c ∈ layout.table.columns, c.field.codec.Lawful

namespace Layout

variable {layout : Layout α} {a : α} {c : Cell}

lemma Lawful.codec (h : layout.Lawful) : layout.codec.Lawful := .layout h.toWellFormed h.fields

lemma WellFormed.sound (h : layout.WellFormed) : layout.Sound where
  parts_build := h.parts_build
  build_parts := h.build_parts
  nodup := by
    have hnames : layout.table.names = layout.table.fields.flatMap fieldNames := by
      rw [Table.names, Table.fields, List.flatMap_map]
      exact List.flatMap_congr h.fits.names_eq
    rw [hnames]
    exact h.fits.clear.nodup

lemma column_mem (hc : c ∈ layout.cells a) : c.column ∈ layout.table.columns := by
  rw [← layout.table.map_column_cells (layout.parts a)]
  exact List.mem_map_of_mem hc

lemma map_fst_members (layout : Layout α) (a : α) :
    (layout.members a).map (·.1) = layout.table.fields := by
  rw [members_eq_map, Table.fields, ← layout.table.map_column_cells (layout.parts a),
    List.map_map, List.map_map]
  rfl

/-- The members that belong to a field are those that are there for its name. -/
lemma WellFormed.given_eq (h : layout.WellFormed) (hc : c ∈ layout.cells a) :
    c.field.given ms = givenFor c.field.name ms := by
  refine List.filter_congr fun m _ => ?_
  rw [Bool.eq_iff_iff, Field.answersTo_iff, decide_eq_true_iff]
  exact iff_of_eq (congrArg (m.1 ∈ ·) (h.fits.names_eq _ (column_mem hc)))

end Layout

/-! ### The structures of the records -/

section Structures

open Codec

@[simp] lemma word_ne_null (n : UInt64) : word.write n ≠ .null := nofun

@[simp] lemma signed_ne_null (n : Int64) : signed.write n ≠ .null := nofun

@[simp] lemma text_ne_null (s : String) : text.write s ≠ .null := nofun

@[simp] lemma bytes_ne_null (bs : List UInt8) : bytes.write bs ≠ .null := nofun

@[simp] lemma codec_ne_null (layout : Layout α) (a : α) : layout.codec.write a ≠ .null := nofun

@[simp] lemma word_lawful : word.Lawful := .exact word_exact

@[simp] lemma signed_lawful : signed.Lawful := .exact signed_exact

@[simp] lemma text_lawful : text.Lawful := .exact text_exact

@[simp] lemma bytes_lawful : bytes.Lawful := .exact bytes_exact

@[simp] lemma signed_optional_lawful : signed.optional.Lawful :=
  .exact (signed_exact.optional signed_ne_null)

@[simp] lemma text_optional_lawful : text.optional.Lawful :=
  .exact (text_exact.optional text_ne_null)

@[simp] lemma assumed_none {name : String} {c : Codec α} : Assumed name (c.optional.write none) :=
  .inl rfl

@[simp] lemma assumed_memo : Assumed "decoded_memo_bytes" (bytes.write []) := .inr ⟨rfl, rfl⟩

theorem Mint.lawful : Mint.layout.Lawful := by
  refine ⟨⟨fun _ => rfl, fun _ => rfl, by decide, ?_, ?_⟩, ?_⟩ <;> simp [Mint.layout]

theorem Burn.lawful : Burn.layout.Lawful := by
  refine ⟨⟨fun _ => rfl, fun _ => rfl, by decide, ?_, ?_⟩, ?_⟩ <;> simp [Burn.layout]

theorem Deposit.lawful : Deposit.layout.Lawful := by
  refine ⟨⟨fun _ => rfl, fun _ => rfl, by decide, ?_, ?_⟩, ?_⟩ <;> simp [Deposit.layout]

theorem Withdrawal.lawful : Withdrawal.layout.Lawful := by
  refine ⟨⟨fun _ => rfl, fun _ => rfl, by decide, ?_, ?_⟩, ?_⟩ <;> simp [Withdrawal.layout]

theorem MintLink.lawful : MintLink.layout.Lawful := by
  refine ⟨⟨fun _ => rfl, fun _ => rfl, by decide, ?_, ?_⟩, ?_⟩ <;> simp [MintLink.layout]

theorem BurnLink.lawful : BurnLink.layout.Lawful := by
  refine ⟨⟨fun _ => rfl, fun _ => rfl, by decide, ?_, ?_⟩, ?_⟩ <;> simp [BurnLink.layout]

theorem AuditedMint.lawful : AuditedMint.layout.Lawful := by
  refine ⟨⟨fun _ => rfl, fun _ => rfl, by decide, ?_, ?_⟩, ?_⟩ <;>
    simp [AuditedMint.layout, MintLink.lawful.codec, Mint.lawful.codec, Deposit.lawful.codec]

theorem AuditedBurn.lawful : AuditedBurn.layout.Lawful := by
  refine ⟨⟨fun _ => rfl, fun _ => rfl, by decide, ?_, ?_⟩, ?_⟩ <;>
    simp [AuditedBurn.layout, BurnLink.lawful.codec, Burn.lawful.codec, Withdrawal.lawful.codec]

theorem UnauditedBurn.lawful : UnauditedBurn.layout.Lawful := by
  refine ⟨⟨fun _ => rfl, fun _ => rfl, by decide, ?_, ?_⟩, ?_⟩ <;>
    simp [UnauditedBurn.layout, Burn.lawful.codec]

theorem UnauditedDeposit.lawful : UnauditedDeposit.layout.Lawful := by
  refine ⟨⟨fun _ => rfl, fun _ => rfl, by decide, ?_, ?_⟩, ?_⟩ <;>
    simp [UnauditedDeposit.layout, Deposit.lawful.codec]

end Structures

end BridgeAudit
