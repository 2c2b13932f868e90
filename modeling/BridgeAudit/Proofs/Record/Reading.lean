import Mathlib.Tactic
import BridgeAudit.Record.Layout

/-!
Reading a structure from an object.

A table is a list of fields of various types (`Table.columns`), and a row of it is a list
of fields with their values (`Table.cells`). What is read from an object is described field by
field, without the order in which the members are gone through.

* `Field.given`: the members of an object that belong to a field.
* `Cell.FoundIn`: the value of a field is what one member says, or the default where no member
  belongs to the field.
* `Table.scan_eq_ok_iff`, `Table.gather_eq_ok_iff`: when the two passes over an object succeed.
* `Layout.Sound`: a layout that puts together what it takes apart, and has no name twice.
* `Layout.Sound.read_object_iff`: a structure is read from an object exactly if each of its fields
  is found there.
-/

namespace BridgeAudit

variable {α τ : Type} {f : Field α} {key : String} {v : Json} {ms : List (String × Json)}
variable {met : List String}

lemma map_eq_ok_iff {ε β : Type} {x : Except ε α} {g : α → β} {b : β} :
    x.map g = .ok b ↔ ∃ a, x = .ok a ∧ g a = b := by
  cases x <;> simp [Except.map]

lemma bind_eq_ok_iff {ε β : Type} {x : Except ε α} {g : α → Except ε β} {b : β} :
    x >>= g = .ok b ↔ ∃ a, x = .ok a ∧ g a = .ok b := by
  cases x <;> simp [bind, Except.bind]

/-- A field of some type. -/
structure Column where
  {α : Type}
  field : Field α

/-- A field with its value. -/
structure Cell where
  {α : Type}
  field : Field α
  value : α

/-- The field of a cell. -/
def Cell.column (c : Cell) : Column := ⟨c.field⟩

/-- The member that a field with its value is written as. -/
def Cell.member (c : Cell) : String × Json := (c.field.name, c.field.codec.write c.value)

/-! ### The members of one field -/

namespace Field

/-- All names that a field goes by. -/
def names (f : Field α) : List String := f.name :: f.otherName.toList

/-- The members that belong to a field. -/
def given (f : Field α) (ms : List (String × Json)) : List (String × Json) :=
  ms.filter fun m => f.answersTo m.1

/-- Among the members that are still to be scanned, given the fields met so far, there is no
fault of this field. -/
structure Passes (f : Field α) (met : List String) (ms : List (String × Json)) : Prop where
  once : (f.given ms).length ≤ 1
  fresh : f.name ∈ met → f.given ms = []
  readable : ∀ m ∈ f.given ms, ∃ a, f.codec.read m.2 = .ok a

lemma answersTo_iff : f.answersTo key ↔ key ∈ f.names := by
  simp only [answersTo, names, Bool.or_eq_true, decide_eq_true_eq, List.mem_cons, Option.mem_toList]

lemma given_cons_of_answersTo (h : f.answersTo key) (v : Json) (ms : List (String × Json)) :
    f.given ((key, v) :: ms) = (key, v) :: f.given ms := List.filter_cons_of_pos h

lemma given_cons_of_not (h : ¬f.answersTo key) (v : Json) (ms : List (String × Json)) :
    f.given ((key, v) :: ms) = f.given ms := List.filter_cons_of_neg h

lemma find?_eq_head? : f.find? ms = (f.given ms).head?.map (·.2) := by
  rw [find?, given, List.head?_filter]

/-- A member of another field changes nothing for this field. -/
lemma passes_cons_of_not (h : ¬f.answersTo key) :
    f.Passes met ((key, v) :: ms) ↔ f.Passes met ms := by
  have hg := given_cons_of_not h v ms
  constructor
  · rintro ⟨honce, hfresh, hread⟩
    rw [hg] at honce hfresh hread
    exact ⟨honce, hfresh, hread⟩
  · rintro ⟨honce, hfresh, hread⟩
    rw [← hg] at honce hfresh hread
    exact ⟨honce, hfresh, hread⟩

/-- Meeting another field changes nothing for this field. -/
lemma passes_met_cons {name : String} (h : f.name ≠ name) :
    f.Passes (name :: met) ms ↔ f.Passes met ms := by
  have hmem : f.name ∈ name :: met ↔ f.name ∈ met := by
    rw [List.mem_cons, or_iff_right h]
  constructor
  · rintro ⟨honce, hfresh, hread⟩
    exact ⟨honce, fun hm => hfresh (hmem.2 hm), hread⟩
  · rintro ⟨honce, hfresh, hread⟩
    exact ⟨honce, fun hm => hfresh (hmem.1 hm), hread⟩

/-- A member of the field must be its first one and readable, and no other may follow. -/
lemma passes_cons_of_answersTo (h : f.answersTo key) :
    f.Passes met ((key, v) :: ms) ↔
      f.name ∉ met ∧ (∃ a, f.codec.read v = .ok a) ∧ f.Passes (f.name :: met) ms := by
  have hg := given_cons_of_answersTo h v ms
  constructor
  · rintro ⟨honce, hfresh, hread⟩
    rw [hg] at honce hfresh hread
    have hnil : f.given ms = [] := by
      rw [List.length_cons] at honce
      exact List.eq_nil_of_length_eq_zero (by omega)
    refine ⟨fun hm => List.cons_ne_nil _ _ (hfresh hm), hread _ List.mem_cons_self, ?_⟩
    exact ⟨by simp [hnil], fun _ => hnil, by simp [hnil]⟩
  · rintro ⟨hmet, hv, -, hfresh, -⟩
    have hnil : f.given ms = [] := hfresh List.mem_cons_self
    constructor
    · rw [hg, hnil, List.length_singleton]
    · intro hm
      exact absurd hm hmet
    · rw [hg, hnil]
      intro m hm
      obtain rfl := List.mem_singleton.1 hm
      exact hv

end Field

/-- The field has its value from the only member that belongs to it, or by default where there
is none. -/
def Cell.FoundIn (c : Cell) (ms : List (String × Json)) : Prop :=
  (c.field.given ms = [] ∧ c.field.default = some c.value) ∨
    ∃ key v, c.field.given ms = [(key, v)] ∧ c.field.codec.read v = .ok c.value

/-- A field passes the scan and is taken exactly if it is found. -/
lemma Cell.foundIn_iff (c : Cell) :
    c.FoundIn ms ↔ c.field.Passes [] ms ∧ c.field.take ms = .ok c.value := by
  rw [FoundIn, Field.take, Field.find?_eq_head?]
  constructor
  · rintro (⟨hnil, hd⟩ | ⟨key, v, hone, hv⟩)
    · rw [hnil, hd]
      exact ⟨⟨by simp [hnil], fun _ => hnil, by simp [hnil]⟩, rfl⟩
    · rw [hone]
      refine ⟨⟨by simp [hone], fun h => absurd h List.not_mem_nil, ?_⟩, hv⟩
      intro m hm
      rw [hone] at hm
      obtain rfl := List.mem_singleton.1 hm
      exact ⟨_, hv⟩
  · rintro ⟨⟨honce, -, -⟩, htake⟩
    match hg : c.field.given ms with
    | [] =>
        refine .inl ⟨rfl, ?_⟩
        rw [hg] at htake
        cases hd : c.field.default with
        | none => simp [hd] at htake
        | some a =>
            simp only [List.head?_nil, Option.map_none, hd, Except.ok.injEq] at htake
            rw [htake]
    | [(key, v)] =>
        rw [hg] at htake
        exact .inr ⟨key, v, rfl, htake⟩
    | _ :: _ :: _ =>
        rw [hg] at honce
        simp at honce

/-! ### The two passes over the members -/

namespace Table

/-- The fields of a table. -/
def columns {τ : Type} : Table τ → List Column
  | .nil => []
  | .cons f rest => ⟨f⟩ :: rest.columns

/-- The fields of a table with their values in a row. -/
def cells {τ : Type} : Table τ → τ → List Cell
  | .nil, () => []
  | .cons f rest, (a, b) => ⟨f, a⟩ :: rest.cells b

/-- All names that the fields of a table go by. -/
def names (table : Table τ) : List String := table.columns.flatMap fun c => c.field.names

variable {table : Table τ}

@[simp] lemma columns_nil : Table.nil.columns = [] := rfl

@[simp] lemma columns_cons {β : Type} {rest : Table β} :
    (Table.cons f rest).columns = ⟨f⟩ :: rest.columns := rfl

lemma names_cons {β : Type} {rest : Table β} :
    (Table.cons f rest).names = f.names ++ rest.names := rfl

lemma members_eq_map {τ : Type} (table : Table τ) (row : τ) :
    table.members row = (table.cells row).map Cell.member := by
  induction table with
  | nil => rfl
  | cons f rest ih => exact congrArg (List.cons _) (ih row.2)

/-- The fields in a row are those of the table. -/
lemma map_column_cells {τ : Type} (table : Table τ) (row : τ) :
    (table.cells row).map Cell.column = table.columns := by
  induction table with
  | nil => rfl
  | cons f rest ih => exact congrArg (List.cons _) (ih row.2)

/-- What is found for a key belongs to a field that goes by it. -/
lemma exists_column_of_find? {τ : Type} {table : Table τ} {name : String}
    {test : Json → Except Fault Unit} (h : table.find? key = some (name, test)) :
    ∃ c ∈ table.columns, name = c.field.name ∧ c.field.answersTo key ∧
      ∀ v, test v = (c.field.codec.read v).map fun _ => () := by
  induction table with
  | nil => cases h
  | cons f rest ih =>
      rw [find?] at h
      split at h
      next hf =>
        cases h
        exact ⟨⟨f⟩, List.mem_cons_self, rfl, hf, fun _ => rfl⟩
      next =>
        obtain ⟨c, hc, hfound⟩ := ih h
        exact ⟨c, List.mem_cons_of_mem _ hc, hfound⟩

lemma mem_names_of_find? {name : String} {test : Json → Except Fault Unit}
    (h : table.find? key = some (name, test)) : name ∈ table.names := by
  obtain ⟨c, hc, rfl, -⟩ := exists_column_of_find? h
  exact List.mem_flatMap.2 ⟨c, hc, List.mem_cons_self⟩

lemma not_answersTo_of_notMem {c : Column} (hc : c ∈ table.columns) (h : key ∉ table.names) :
    ¬c.field.answersTo key := by
  intro hk
  exact h (List.mem_flatMap.2 ⟨c, hc, Field.answersTo_iff.1 hk⟩)

lemma name_ne_of_notMem {c : Column} (hc : c ∈ table.columns) (h : key ∉ table.names) :
    c.field.name ≠ key := by
  rintro rfl
  exact h (List.mem_flatMap.2 ⟨c, hc, List.mem_cons_self⟩)

/-- The step of the scan: what the first member asks for, and what is left to ask for. -/
lemma passes_cons_iff {τ : Type} {table : Table τ} (h : table.names.Nodup) :
    (∀ c ∈ table.columns, c.field.Passes met ((key, v) :: ms)) ↔
      match table.find? key with
      | none => ∀ c ∈ table.columns, c.field.Passes met ms
      | some (name, test) =>
          name ∉ met ∧ test v = .ok () ∧ ∀ c ∈ table.columns, c.field.Passes (name :: met) ms := by
  induction table with
  | nil => simp [columns, find?]
  | cons f rest ih =>
      rw [names_cons, List.nodup_append] at h
      obtain ⟨-, hrest, hdisj⟩ := h
      simp only [columns, List.forall_mem_cons, find?]
      by_cases hf : f.answersTo key
      · -- the member belongs to the first field, so to no other
        have hkey : key ∉ rest.names := fun hk => hdisj _ (Field.answersTo_iff.1 hf) _ hk rfl
        have hname : f.name ∉ rest.names := fun hk => hdisj _ List.mem_cons_self _ hk rfl
        have hothers : (∀ c ∈ rest.columns, c.field.Passes met ((key, v) :: ms)) ↔
            ∀ c ∈ rest.columns, c.field.Passes (f.name :: met) ms :=
          forall₂_congr fun c hc => by
            rw [Field.passes_cons_of_not (not_answersTo_of_notMem hc hkey),
              Field.passes_met_cons (name_ne_of_notMem hc hname)]
        have htest : (f.codec.read v).map (fun _ => ()) = .ok () ↔ ∃ a, f.codec.read v = .ok a := by
          simp only [map_eq_ok_iff, and_true]
        rw [if_pos hf, hothers, Field.passes_cons_of_answersTo hf]
        simp only [htest]
        tauto
      · rw [if_neg hf, ih hrest, Field.passes_cons_of_not hf]
        cases hfind : rest.find? key with
        | none => exact Iff.rfl
        | some found =>
            have hne : f.name ≠ found.1 := fun he =>
              hdisj _ List.mem_cons_self _ (mem_names_of_find? hfind) he
            simp only [Field.passes_met_cons hne]
            tauto

/-- The scan succeeds exactly if no field has a fault. -/
lemma scan_eq_ok_iff (h : table.names.Nodup) :
    table.scan met ms = .ok () ↔ ∀ c ∈ table.columns, c.field.Passes met ms := by
  induction ms generalizing met with
  | nil =>
      refine iff_of_true rfl ?_
      intro c _
      exact ⟨by simp [Field.given], fun _ => rfl, by simp [Field.given]⟩
  | cons m ms ih =>
      obtain ⟨key, v⟩ := m
      rw [passes_cons_iff h, scan]
      cases table.find? key with
      | none => exact ih
      | some found =>
          obtain ⟨name, test⟩ := found
          dsimp only
          by_cases hm : name ∈ met
          · simp [hm]
          · rw [if_neg hm, bind_eq_ok_iff]
            constructor
            · rintro ⟨_, ht, hscan⟩
              exact ⟨hm, ht, ih.1 hscan⟩
            · rintro ⟨-, ht, hms⟩
              exact ⟨(), ht, ih.2 hms⟩

/-- The fields are gathered as a row exactly if each is taken with its value in that row. -/
lemma gather_eq_ok_iff {τ : Type} {table : Table τ} {row : τ} :
    table.gather ms = .ok row ↔ ∀ c ∈ table.cells row, c.field.take ms = .ok c.value := by
  induction table with
  | nil => simp [gather, cells]
  | cons f rest ih =>
      obtain ⟨a, b⟩ := row
      rw [cells, List.forall_mem_cons, ← ih, gather, bind_eq_ok_iff]
      constructor
      · rintro ⟨a', ha, hrest⟩
        obtain ⟨b', hb, hpair⟩ := bind_eq_ok_iff.1 hrest
        cases hpair
        exact ⟨ha, hb⟩
      · rintro ⟨ha, hb⟩
        exact ⟨a, ha, bind_eq_ok_iff.2 ⟨b, hb, rfl⟩⟩

end Table

/-! ### A whole structure -/

namespace Layout

/-- The fields of a structure with their values. -/
def cells (layout : Layout α) (a : α) : List Cell := layout.table.cells (layout.parts a)

lemma members_eq_map (layout : Layout α) (a : α) :
    layout.members a = (layout.cells a).map Cell.member := layout.table.members_eq_map _

/-- A layout that puts together what it takes apart, and none of whose names stands twice. -/
structure Sound (layout : Layout α) : Prop where
  parts_build : ∀ row, layout.parts (layout.build row) = row
  build_parts : ∀ a, layout.build (layout.parts a) = a
  nodup : layout.table.names.Nodup

/-- **Reading an object.** A structure is read from an object exactly if each of its fields
is found there. -/
theorem Sound.read_object_iff {layout : Layout α} (h : layout.Sound) {a : α} :
    layout.read (.object ms) = .ok a ↔ ∀ c ∈ layout.cells a, c.FoundIn ms := by
  have hfound : (∀ c ∈ layout.cells a, c.FoundIn ms) ↔
      layout.table.scan [] ms = .ok () ∧ layout.table.gather ms = .ok (layout.parts a) := by
    rw [Table.scan_eq_ok_iff h.nodup, Table.gather_eq_ok_iff,
      ← layout.table.map_column_cells (layout.parts a), List.forall_mem_map]
    simp only [Cell.foundIn_iff, Cell.column, cells, forall_and]
  rw [hfound, read, bind_eq_ok_iff]
  constructor
  · rintro ⟨_, hscan, hrest⟩
    obtain ⟨row, hgather, hbuild⟩ := bind_eq_ok_iff.1 hrest
    cases hbuild
    rw [h.parts_build]
    exact ⟨hscan, hgather⟩
  · rintro ⟨hscan, hgather⟩
    refine ⟨(), hscan, bind_eq_ok_iff.2 ⟨_, hgather, ?_⟩⟩
    rw [h.build_parts]
    rfl

end Layout

end BridgeAudit
