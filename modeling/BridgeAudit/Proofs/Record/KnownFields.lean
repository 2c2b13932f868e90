import BridgeAudit.Proofs.Record.Structures

/-!
The fields that a structure knows.

* `Table.known`: the members of an object that belong to a field.
* `Table.ReadAlike`: two members with one key, whose values are alike for the field that goes by it.
* `Layout.read_congr`: a structure is read alike, with the same fault if there is one, from objects
  whose known members are alike.
* `Layout.read_snakeKeys_congr`: so the members whose keys are known in snake case decide what is
  read once all keys are in snake case.
-/

namespace BridgeAudit

variable {α τ : Type} {ms us : List (String × Json)} {met : List String} {key : String}

/-! ### Known members -/

namespace Field

variable {f : Field α}

/-- A field is taken from the first member that belongs to it. -/
lemma take_cons (m : String × Json) (ms : List (String × Json)) :
    f.take (m :: ms) = if f.answersTo m.1 then f.codec.read m.2 else f.take ms := by
  by_cases hm : f.answersTo m.1 <;> simp [take, find?, hm]

end Field

namespace Table

/-- The members of an object that belong to a field. -/
def known (table : Table τ) (ms : List (String × Json)) : List (String × Json) :=
  ms.filter fun m => m.1 ∈ table.names

/-- Two members have one key, and the field that goes by it is read from both alike. -/
structure ReadAlike (table : Table τ) (m n : String × Json) : Prop where
  key_eq : m.1 = n.1
  read_eq : ∀ col ∈ table.columns, col.field.answersTo m.1 →
    col.field.codec.read m.2 = col.field.codec.read n.2

variable {table : Table τ}

lemma ReadAlike.refl (m : String × Json) : table.ReadAlike m m := ⟨rfl, fun _ _ _ => rfl⟩

lemma find?_eq_none {τ : Type} {table : Table τ} (h : key ∉ table.names) :
    table.find? key = none := by
  induction table with
  | nil => rfl
  | cons f rest ih =>
      rw [names_cons, List.mem_append, not_or] at h
      rw [find?, if_neg fun hf => h.1 (Field.answersTo_iff.1 hf), ih h.2]

/-- Of members that are alike the same ones are known. -/
lemma forall₂_known (h : List.Forall₂ table.ReadAlike ms us) :
    List.Forall₂ table.ReadAlike (table.known ms) (table.known us) :=
  List.rel_filter (fun _ _ hmn => by simp [hmn.key_eq]) h

/-- The scan passes over what belongs to no field. -/
lemma scan_known : table.scan met (table.known ms) = table.scan met ms := by
  induction ms generalizing met with
  | nil => rfl
  | cons m ms ih =>
      obtain ⟨key, v⟩ := m
      by_cases hkey : key ∈ table.names
      · have hknown : table.known ((key, v) :: ms) = (key, v) :: table.known ms :=
          List.filter_cons_of_pos (by simpa using hkey)
        rw [hknown, scan, scan]
        simp only [ih]
      · have hknown : table.known ((key, v) :: ms) = table.known ms :=
          List.filter_cons_of_neg (by simpa using hkey)
        rw [hknown, ih, scan, find?_eq_none hkey]

/-- Members that are alike are scanned alike. -/
lemma scan_congr (h : List.Forall₂ table.ReadAlike ms us) :
    table.scan met ms = table.scan met us := by
  induction h generalizing met with
  | nil => rfl
  | @cons m n ms us hmn _ ih =>
      obtain ⟨key, v⟩ := m
      obtain ⟨key', w⟩ := n
      obtain ⟨rfl, hread⟩ := hmn
      rw [scan, scan]
      cases hfind : table.find? key with
      | none => exact ih
      | some found =>
          obtain ⟨name, test⟩ := found
          obtain ⟨col, hcol, -, hanswers, htest⟩ := exists_column_of_find? hfind
          simp only [htest, hread col hcol hanswers, ih]

/-- A field is taken from the members that belong to some field. -/
lemma take_known {col : Column} (hcol : col ∈ table.columns) :
    col.field.take (table.known ms) = col.field.take ms := by
  induction ms with
  | nil => rfl
  | cons m ms ih =>
      rw [known, List.filter_cons, Field.take_cons]
      by_cases hanswers : col.field.answersTo m.1
      · have hkey : m.1 ∈ table.names :=
          List.mem_flatMap.2 ⟨col, hcol, Field.answersTo_iff.1 hanswers⟩
        rw [if_pos (decide_eq_true hkey), Field.take_cons, if_pos hanswers, if_pos hanswers]
      · rw [if_neg hanswers, ← ih]
        split
        · rw [Field.take_cons, if_neg hanswers, known]
        · rfl

/-- A field is taken alike from members that are alike. -/
lemma take_congr {col : Column} (hcol : col ∈ table.columns)
    (h : List.Forall₂ table.ReadAlike ms us) : col.field.take ms = col.field.take us := by
  induction h with
  | nil => rfl
  | @cons m n ms us hmn _ ih =>
      obtain ⟨hkey, hread⟩ := hmn
      rw [Field.take_cons, Field.take_cons, ← hkey, ih]
      split
      next hanswers => exact hread col hcol hanswers
      next => rfl

/-- Fields that are taken alike are gathered alike. -/
lemma gather_congr {τ : Type} {table : Table τ}
    (h : ∀ col ∈ table.columns, col.field.take ms = col.field.take us) :
    table.gather ms = table.gather us := by
  induction table with
  | nil => rfl
  | cons f rest ih =>
      rw [columns_cons, List.forall_mem_cons] at h
      rw [gather, gather, h.1, ih h.2]

end Table

/-- A structure is read alike from objects whose known members are alike. -/
theorem Layout.read_congr {layout : Layout α}
    (h : List.Forall₂ layout.table.ReadAlike (layout.table.known ms) (layout.table.known us)) :
    layout.read (.object ms) = layout.read (.object us) := by
  have hscan : layout.table.scan [] ms = layout.table.scan [] us := by
    rw [← Table.scan_known, Table.scan_congr h, Table.scan_known]
  have hgather : layout.table.gather ms = layout.table.gather us :=
    Table.gather_congr fun col hcol => by
      rw [← Table.take_known hcol, Table.take_congr hcol h, Table.take_known hcol]
  rw [read, read, hscan, hgather]

/-! ### Keys in snake case -/

/-- A member with its key, and the keys inside, in snake case. -/
def Json.snakeMember (m : String × Json) : String × Json := (Key.snake m.1, m.2.snakeKeys)

namespace Layout

variable {layout : Layout α}

/-- The members of an object with keys in snake case that belong to a field. -/
lemma known_snakeKeys (layout : Layout α) (ms : List (String × Json)) :
    layout.table.known (Members.ofList (Json.snakeKeysMembers ms)) =
      Members.ofList (layout.table.known (ms.map Json.snakeMember)) := by
  rw [Json.snakeKeysMembers_eq_map, Table.known, Table.known]
  exact Members.filter_ofList (fun key => key ∈ layout.table.names) _

/-- Once all keys are in snake case, what is read depends on the members whose keys are known. -/
theorem read_snakeKeys_congr
    (h : List.Forall₂ layout.table.ReadAlike (layout.table.known (ms.map Json.snakeMember))
      (layout.table.known (us.map Json.snakeMember))) :
    layout.read (Json.object ms).snakeKeys = layout.read (Json.object us).snakeKeys := by
  rw [Json.snakeKeys, Json.snakeKeys]
  refine read_congr ?_
  rw [known_snakeKeys, known_snakeKeys]
  exact Members.forall₂_ofList (fun _ _ hmn => hmn.key_eq) h

end Layout

end BridgeAudit
