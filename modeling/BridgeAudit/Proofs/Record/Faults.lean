import BridgeAudit.Proofs.Record.Structures
import BridgeAudit.Proofs.Text.Unbroken

/-!
What a record that cannot be decoded is refused for.

* `Layout.Fails`: the faults that a structure can be refused for, with a constructor for each kind;
  `Layout.fails_of_read`: there are no others.
* `Fault.Plain`: a fault with no line break in the names it is said with.
* `Fault.unbroken_message`: such a fault is said on one line, whatever the value is.
* `Codec.Plain`, `Layout.Plain`: what is refused for plain faults only; `Category.plain`: the
  structures of the records are.
-/

namespace BridgeAudit

variable {α τ : Type} {v : Json} {fault : Fault} {ms : List (String × Json)}

lemma map_eq_error_iff {ε β : Type} {x : Except ε α} {g : α → β} {e : ε} :
    x.map g = .error e ↔ x = .error e := by
  cases x <;> simp [Except.map]

lemma bind_eq_error_iff {ε β : Type} {x : Except ε α} {g : α → Except ε β} {e : ε} :
    x >>= g = .error e ↔ x = .error e ∨ ∃ a, x = .ok a ∧ g a = .error e := by
  cases x <;> simp [bind, Except.bind]

/-- What is put together from a result brings no error of its own. -/
lemma bind_pure_eq_error_iff {ε β : Type} {x : Except ε α} {g : α → β} {e : ε} :
    (x >>= fun a => pure (g a)) = .error e ↔ x = .error e := by
  cases x <;> simp [bind, Except.bind, pure, Except.pure]

/-! ### Where faults come from -/

/-- A fault of one of the fields of a table. -/
inductive Table.Fails (table : Table τ) : Fault → Prop
  /-- The value of a field is refused. -/
  | field {c : Column} {v : Json} {fault : Fault} (hc : c ∈ table.columns)
      (h : c.field.codec.read v = .error fault) : Fails table fault
  /-- A field is not there. -/
  | missing {c : Column} (hc : c ∈ table.columns) : Fails table (.missing c.field.name)
  /-- A field is there twice. -/
  | duplicate {c : Column} (hc : c ∈ table.columns) : Fails table (.duplicate c.field.name)

/-- A fault of a structure. -/
inductive Layout.Fails (layout : Layout α) : Fault → Prop
  /-- One of the fields has it. -/
  | table {fault : Fault} (h : layout.table.Fails fault) : Fails layout fault
  /-- The value is no object and no array. -/
  | wrongKind (v : Json) : Fails layout (.wrongKind v ("struct " ++ layout.structName))
  /-- The array ends in front of a field. -/
  | tooShort (index fields : Nat) : Fails layout (.tooShort index layout.structName fields)
  /-- The array goes on behind the last field. -/
  | tooLong (length : Nat) : Fails layout (.tooLong length)

namespace Table

variable {table : Table τ}

lemma Fails.cons {β : Type} {f : Field α} {rest : Table β} (h : rest.Fails fault) :
    (Table.cons f rest).Fails fault := by
  cases h with
  | field hc h => exact .field (List.mem_cons_of_mem _ hc) h
  | missing hc => exact .missing (List.mem_cons_of_mem _ hc)
  | duplicate hc => exact .duplicate (List.mem_cons_of_mem _ hc)

/-- The scan stops at a field that is met twice or whose value is refused. -/
lemma fails_of_scan {met : List String} (h : table.scan met ms = .error fault) :
    table.Fails fault := by
  induction ms generalizing met with
  | nil => cases h
  | cons m ms ih =>
      obtain ⟨key, v⟩ := m
      rw [scan] at h
      cases hfind : table.find? key with
      | none =>
          rw [hfind] at h
          exact ih h
      | some found =>
          obtain ⟨c, hc, hname, -, htest⟩ := exists_column_of_find? hfind
          rw [hfind] at h
          dsimp only at h
          split_ifs at h
          · cases h
            exact hname ▸ .duplicate hc
          · rcases bind_eq_error_iff.1 h with hv | ⟨_, -, hrest⟩
            · rw [htest, map_eq_error_iff] at hv
              exact .field hc hv
            · exact ih hrest

lemma fails_of_take {c : Column} (hc : c ∈ table.columns) (h : c.field.take ms = .error fault) :
    table.Fails fault := by
  rw [Field.take] at h
  split at h
  · exact .field hc h
  · split at h
    · cases h
    · cases h
      exact .missing hc

lemma fails_of_gather {τ : Type} {table : Table τ} (h : table.gather ms = .error fault) :
    table.Fails fault := by
  induction table with
  | nil => cases h
  | cons f rest ih =>
      rw [gather] at h
      rcases bind_eq_error_iff.1 h with hf | ⟨_, -, h⟩
      · exact fails_of_take (c := ⟨f⟩) List.mem_cons_self hf
      · exact (ih (bind_pure_eq_error_iff.1 h)).cons

/-- An array is refused for one of its items or for its length. -/
lemma fails_of_place {τ : Type} {table : Table τ} {structName : String}
    {count length index : Nat} {items : List Json}
    (h : table.place structName count length index items = .error fault) :
    table.Fails fault ∨ (∃ index, fault = .tooShort index structName count) ∨
      fault = .tooLong length := by
  induction table generalizing index items with
  | nil =>
      cases items with
      | nil => cases h
      | cons v vs =>
          cases h
          exact .inr (.inr rfl)
  | cons f rest ih =>
      have hlater {items : List Json}
          (h : rest.place structName count length (index + 1) items = .error fault) :
          (Table.cons f rest).Fails fault ∨ (∃ index, fault = .tooShort index structName count) ∨
            fault = .tooLong length := (ih h).imp_left Fails.cons
      cases items with
      | nil =>
          rw [place] at h
          split at h
          · exact hlater (bind_pure_eq_error_iff.1 h)
          · cases h
            exact .inr (.inl ⟨index, rfl⟩)
      | cons v vs =>
          rw [place] at h
          rcases bind_eq_error_iff.1 h with hv | ⟨_, -, h⟩
          · exact .inl (.field (c := ⟨f⟩) List.mem_cons_self hv)
          · exact hlater (bind_pure_eq_error_iff.1 h)

end Table

/-- **Where faults come from.** A structure is refused for a field or for the whole of its value,
and for nothing else. -/
theorem Layout.fails_of_read {layout : Layout α} (h : layout.read v = .error fault) :
    layout.Fails fault := by
  unfold read at h
  split at h
  · rcases bind_eq_error_iff.1 h with hscan | ⟨_, -, h⟩
    · exact .table (Table.fails_of_scan hscan)
    · exact .table (Table.fails_of_gather (bind_pure_eq_error_iff.1 h))
  · rcases Table.fails_of_place (bind_pure_eq_error_iff.1 h) with htable | ⟨index, rfl⟩ | rfl
    · exact .table htable
    · exact .tooShort index _
    · exact .tooLong _
  · cases h
    exact .wrongKind _

/-! ### Faults on one line -/

namespace Fault

/-- The names that a fault is said with. -/
def names : Fault → List String
  | wrongKind _ wanted => [wanted]
  | outOfRange _ wanted => [wanted]
  | missing field => [field]
  | duplicate field => [field]
  | tooShort _ structName _ => [structName]
  | tooLong _ => []

/-- No name that a fault is said with breaks a line. -/
def Plain (fault : Fault) : Prop := ∀ name ∈ fault.names, Unbroken name.toList

lemma unbroken_marked {s : String} (h : Unbroken s.toList) : Unbroken (marked s).toList := by
  simp [marked, h]

/-- A value is named on one line, whatever it is. -/
lemma unbroken_describe (v : Json) : Unbroken (describe v).toList := by
  cases v with
  | null => simp [describe]
  | boolean b => cases b <;> simp [describe, unbroken_marked]
  | number n =>
      have hnumber : Unbroken n.chars := Json.unbroken_scalarChars (.number n)
      cases n <;>
        exact unbroken_toList_append.2 ⟨by decide, unbroken_marked (by rwa [String.toList_ofList])⟩
  | string s => exact unbroken_toList_append.2 ⟨by decide, Quoted.unbroken_write s⟩
  | array items => exact (by decide : Unbroken "sequence".toList)
  | object ms => exact (by decide : Unbroken "map".toList)

lemma unbroken_elements (n : Nat) : Unbroken (elements n).toList := by
  rw [elements]
  split_ifs
  · decide
  · simp

/-- **A plain fault is said on one line.** -/
theorem unbroken_message (h : fault.Plain) : Unbroken fault.message.toList := by
  unfold message
  cases fault with
  | wrongKind found wanted | outOfRange found wanted =>
      have hwanted : Unbroken wanted.toList := h _ List.mem_cons_self
      simp [unbroken_describe, hwanted]
  | missing field | duplicate field =>
      have hfield : Unbroken field.toList := h _ List.mem_cons_self
      simp [unbroken_marked hfield]
  | tooShort index structName fields =>
      have hname : Unbroken structName.toList := h _ List.mem_cons_self
      simp [hname, unbroken_elements]
  | tooLong length => simp

end Fault

/-! ### Plain codecs and layouts -/

/-- What is read is refused for plain faults only. -/
def Codec.Plain (c : Codec α) : Prop := ∀ v fault, c.read v = .error fault → fault.Plain

/-- No name in the layout breaks a line, and its fields are read by plain codecs. -/
structure Layout.Plain (layout : Layout α) : Prop where
  structName : Unbroken layout.structName.toList
  names : ∀ c ∈ layout.table.columns, Unbroken c.field.name.toList
  fields : ∀ c ∈ layout.table.columns, c.field.codec.Plain

namespace Codec

variable {wanted : String}

lemma plain_wrongKind (h : Unbroken wanted.toList) (v : Json) : (Fault.wrongKind v wanted).Plain :=
  List.forall_mem_singleton.2 h

lemma plain_of_integerIn {low high : Int} (h : Unbroken wanted.toList)
    (hread : integerIn wanted low high v = .error fault) : fault.Plain := by
  unfold integerIn at hread
  split at hread
  · split at hread
    · cases hread
    · cases hread
      exact List.forall_mem_singleton.2 h
  · cases hread
    exact plain_wrongKind h _

@[simp] lemma word_plain : word.Plain := fun _ _ h =>
  plain_of_integerIn (by decide) (map_eq_error_iff.1 h)

@[simp] lemma signed_plain : signed.Plain := fun _ _ h =>
  plain_of_integerIn (by decide) (map_eq_error_iff.1 h)

lemma byte_plain : byte.Plain := fun _ _ h =>
  plain_of_integerIn (by decide) (map_eq_error_iff.1 h)

@[simp] lemma text_plain : text.Plain := by
  intro v fault h
  cases v with
  | string s => cases h
  | _ =>
      cases h
      exact plain_wrongKind (by decide) _

/-- A row of items is refused for one of them. -/
lemma Plain.of_mapM {c : Codec α} (hc : c.Plain) {items : List Json}
    (h : items.mapM c.read = .error fault) : fault.Plain := by
  induction items with
  | nil => cases h
  | cons v vs ih =>
      rw [List.mapM_cons] at h
      rcases bind_eq_error_iff.1 h with hv | ⟨_, -, h⟩
      · exact hc v fault hv
      · exact ih (bind_pure_eq_error_iff.1 h)

@[simp] lemma bytes_plain : bytes.Plain := by
  intro v fault h
  cases v with
  | array items => exact byte_plain.of_mapM h
  | _ =>
      cases h
      exact plain_wrongKind (by decide) _

@[simp] lemma Plain.optional {c : Codec α} (hc : c.Plain) : c.optional.Plain := by
  intro v fault h
  by_cases hv : v = .null
  · rw [hv] at h
    cases h
  · rw [optional_read_of_ne c hv, map_eq_error_iff] at h
    exact hc v fault h

end Codec

/-- A plain layout is read by a plain codec, so that plain structures nest. -/
lemma Layout.Plain.codec {layout : Layout α} (h : layout.Plain) : layout.codec.Plain := by
  intro v fault hread
  have hfails : layout.Fails fault := Layout.fails_of_read hread
  cases hfails with
  | table htable =>
      cases htable with
      | field hc hfield => exact h.fields _ hc _ _ hfield
      | missing hc | duplicate hc => exact List.forall_mem_singleton.2 (h.names _ hc)
  | wrongKind v =>
      exact Codec.plain_wrongKind (unbroken_toList_append.2 ⟨by decide, h.structName⟩) v
  | tooShort index fields => exact List.forall_mem_singleton.2 h.structName
  | tooLong length => exact fun _ hname => absurd hname List.not_mem_nil

/-! ### The structures of the records -/

lemma Mint.plain : Mint.layout.Plain := by
  constructor <;> simp [Mint.layout]

lemma Burn.plain : Burn.layout.Plain := by
  constructor <;> simp [Burn.layout]

lemma Deposit.plain : Deposit.layout.Plain := by
  constructor <;> simp [Deposit.layout]

lemma Withdrawal.plain : Withdrawal.layout.Plain := by
  constructor <;> simp [Withdrawal.layout]

lemma MintLink.plain : MintLink.layout.Plain := by
  constructor <;> simp [MintLink.layout]

lemma BurnLink.plain : BurnLink.layout.Plain := by
  constructor <;> simp [BurnLink.layout]

lemma AuditedMint.plain : AuditedMint.layout.Plain := by
  constructor <;>
    simp [AuditedMint.layout, MintLink.plain.codec, Mint.plain.codec, Deposit.plain.codec]

lemma AuditedBurn.plain : AuditedBurn.layout.Plain := by
  constructor <;>
    simp [AuditedBurn.layout, BurnLink.plain.codec, Burn.plain.codec, Withdrawal.plain.codec]

lemma UnauditedBurn.plain : UnauditedBurn.layout.Plain := by
  constructor <;> simp [UnauditedBurn.layout, Burn.plain.codec]

lemma UnauditedDeposit.plain : UnauditedDeposit.layout.Plain := by
  constructor <;> simp [UnauditedDeposit.layout, Deposit.plain.codec]

lemma Category.plain (c : Category) : c.scheme.layout.Plain := by
  cases c with
  | auditedMint => exact AuditedMint.plain
  | auditedBurn => exact AuditedBurn.plain
  | unauditedMint => exact Mint.plain
  | unauditedBurn => exact UnauditedBurn.plain
  | unauditedDeposit => exact UnauditedDeposit.plain
  | unauditedWithdrawal => exact Withdrawal.plain

/-- A record of whatever shape is refused for plain faults only. -/
theorem Record.plain_of_decode {c : Category} (h : Record.decode c v = .error fault) :
    fault.Plain := by
  obtain ⟨wrap, hwrap⟩ := Record.exists_wrap c
  rw [hwrap, map_eq_error_iff] at h
  exact c.plain.codec v fault h

end BridgeAudit
