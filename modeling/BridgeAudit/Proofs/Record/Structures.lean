import BridgeAudit.Proofs.Record.Redating

/-!
The structures that records are made of.

* `Scheme`: a structure of some type.
* `Category.scheme`, `Category.parts`: the structure that a record of a shape is decoded as, and the
  structures inside, each with the field that holds it.
* `Record.exists_wrap`: a record is decoded as its structure is read.
* `Decoded`: an object that is decoded as a structure when a value is decoded as of a shape.
-/

namespace BridgeAudit

variable {c : Category} {name key : String} {s : Scheme} {v w : Json}

/-- A structure of some type. -/
structure Scheme where
  {α : Type}
  layout : Layout α

/-- All names that the fields of a structure go by. -/
def Scheme.names (s : Scheme) : List String := s.layout.table.names

/-- The field of the given name that holds a structure. -/
def Scheme.heldBy (s : Scheme) (name : String) : Column := ⟨partField name s.layout⟩

lemma Scheme.answersTo_heldBy (s : Scheme) (name : String) :
    (s.heldBy name).field.answersTo name := Field.answersTo_iff.2 List.mem_cons_self

namespace Category

/-- The structure that a record of a shape is decoded as. -/
def scheme : Category → Scheme
  | auditedMint => ⟨AuditedMint.layout⟩
  | auditedBurn => ⟨AuditedBurn.layout⟩
  | unauditedMint => ⟨Mint.layout⟩
  | unauditedBurn => ⟨UnauditedBurn.layout⟩
  | unauditedDeposit => ⟨UnauditedDeposit.layout⟩
  | unauditedWithdrawal => ⟨Withdrawal.layout⟩

/-- The structures in a record of a shape, each with the name of the field that holds it. -/
def parts : Category → List (String × Scheme)
  | auditedMint =>
      [("audited", ⟨MintLink.layout⟩), ("mint", ⟨Mint.layout⟩), ("deposit", ⟨Deposit.layout⟩)]
  | auditedBurn =>
      [("audited", ⟨BurnLink.layout⟩), ("burn", ⟨Burn.layout⟩),
        ("withdrawal", ⟨Withdrawal.layout⟩)]
  | unauditedBurn => [("burn", ⟨Burn.layout⟩)]
  | unauditedDeposit => [("deposit", ⟨Deposit.layout⟩)]
  | unauditedMint | unauditedWithdrawal => []

lemma lawful (c : Category) : c.scheme.layout.Lawful := by
  cases c with
  | auditedMint => exact AuditedMint.lawful
  | auditedBurn => exact AuditedBurn.lawful
  | unauditedMint => exact Mint.lawful
  | unauditedBurn => exact UnauditedBurn.lawful
  | unauditedDeposit => exact UnauditedDeposit.lawful
  | unauditedWithdrawal => exact Withdrawal.lawful

lemma lawful_of_mem_parts (h : (name, s) ∈ c.parts) : s.layout.Lawful := by
  have hall : ∀ p ∈ c.parts, p.2.layout.Lawful := by
    cases c <;>
      simp [parts, MintLink.lawful, BurnLink.lawful, Mint.lawful, Burn.lawful, Deposit.lawful,
        Withdrawal.lawful]
  exact hall _ h

/-- A part is held by a field of the record. -/
lemma heldBy_mem (h : (name, s) ∈ c.parts) : s.heldBy name ∈ c.scheme.layout.table.columns := by
  have hall : ∀ p ∈ c.parts, p.2.heldBy p.1 ∈ c.scheme.layout.table.columns := by
    cases c <;> simp [parts, scheme, Scheme.heldBy, partField, AuditedMint.layout,
      AuditedBurn.layout, UnauditedBurn.layout, UnauditedDeposit.layout]
  exact hall _ h

end Category

/-! ### Fields by their names -/

/-- Only one field of a table goes by a name. -/
lemma Table.eq_of_answersTo {τ : Type} {table : Table τ} (h : table.names.Nodup) {col col' : Column}
    (hcol : col ∈ table.columns) (hcol' : col' ∈ table.columns) (hkey : col.field.answersTo key)
    (hkey' : col'.field.answersTo key) : col = col' := by
  have hsymm : Std.Symm (Function.onFun List.Disjoint fun c : Column => c.field.names) :=
    ⟨fun _ _ hdisjoint => List.Disjoint.symm hdisjoint⟩
  by_contra hne
  have hdisjoint := (List.nodup_flatMap.1 h).2.forall hcol hcol' hne
  exact hdisjoint (Field.answersTo_iff.1 hkey) (Field.answersTo_iff.1 hkey')

/-- What goes by the name of a part is the field that holds it. -/
lemma Category.eq_heldBy {col : Column} (h : (name, s) ∈ c.parts)
    (hcol : col ∈ c.scheme.layout.table.columns) (hname : col.field.answersTo name) :
    col = s.heldBy name :=
  Table.eq_of_answersTo c.lawful.sound.nodup hcol (heldBy_mem h) hname (s.answersTo_heldBy name)

/-! ### Decoding -/

namespace Record

/-- A record is decoded as its structure is read. -/
lemma exists_wrap (c : Category) :
    ∃ wrap, ∀ v, decode c v = (c.scheme.layout.read v).map wrap := by
  cases c <;> exact ⟨_, fun _ => rfl⟩

/-- Values whose structures are read alike are decoded alike. -/
lemma decode_congr (h : c.scheme.layout.read v = c.scheme.layout.read w) :
    decode c v = decode c w := by
  obtain ⟨wrap, hwrap⟩ := exists_wrap c
  rw [hwrap, hwrap, h]

/-- A record whose structure cannot be read has a fault. -/
lemma exists_fault (h : ∀ a, c.scheme.layout.read v ≠ .ok a) :
    ∃ fault, decode c v = .error fault := by
  obtain ⟨wrap, hwrap⟩ := exists_wrap c
  rw [hwrap]
  cases hread : c.scheme.layout.read v with
  | error fault => exact ⟨fault, rfl⟩
  | ok a => exact absurd hread (h a)

end Record

/-- An object that is decoded as a structure when a value is decoded as of a shape: the value itself
or a part of it. -/
inductive Decoded (c : Category) : Json → Scheme → List (String × Json) → Prop
  | whole (ms : List (String × Json)) : Decoded c (.object ms) c.scheme ms
  | part {ms us : List (String × Json)} {name : String} {s : Scheme} (hpart : (name, s) ∈ c.parts)
      (hus : (name, .object us) ∈ ms) : Decoded c (.object ms) s us

end BridgeAudit
