import BridgeAudit.Record.Codec

/-!
Structures as JSON.

A structure is laid out as a table of fields. It is read from an object by the
names of the fields, or from an array by their order; it is written as an object
with the fields in the order of the table.

* `Field`, `Table`, `Layout`: one field, a row of fields, a structure.
* `Table.scan`: goes through the members of an object in their order and stops at
  the first fault: a field met twice, or a value that is not of the field's type.
* `Table.gather`: takes the fields in the order of the table, each from the object or
  from its default.
* `Table.place`: takes the fields from the items of an array.
* `Layout.codec`: a structure as a value, so that structures nest.
-/

namespace BridgeAudit

/-- A field of a structure. -/
structure Field (α : Type) where
  /-- The name it is written under. -/
  name : String
  /-- Another name it may be read under. -/
  otherName : Option String
  /-- What it is if it is not there. -/
  default : Option α
  codec : Codec α

/-- A row of fields; the type collects the types of the fields. -/
inductive Table : Type → Type 1
  | nil : Table Unit
  | cons {α β : Type} (field : Field α) (rest : Table β) : Table (α × β)

namespace Field

variable {α : Type}

/-- The field goes by this name. -/
def answersTo (f : Field α) (key : String) : Bool := key = f.name || f.otherName = some key

/-- The value of the field among the members of an object. -/
def find? (f : Field α) (ms : List (String × Json)) : Option Json :=
  (ms.find? fun m => f.answersTo m.1).map (·.2)

/-- The field as it is read from an object. -/
def take (f : Field α) (ms : List (String × Json)) : Except Fault α :=
  match f.find? ms with
  | some v => f.codec.read v
  | none =>
      match f.default with
      | some a => .ok a
      | none => .error (.missing f.name)

end Field

namespace Table

variable {α β τ : Type}

/-- In front of a table, a field that has to be there. -/
abbrev required (name : String) (codec : Codec α) (rest : Table β) : Table (α × β) :=
  .cons ⟨name, none, none, codec⟩ rest

/-- In front of a table, a field that has to be there and has two names. -/
abbrev renamed (name otherName : String) (codec : Codec α) (rest : Table β) : Table (α × β) :=
  .cons ⟨name, some otherName, none, codec⟩ rest

/-- In front of a table, a field that may be absent or `null`. -/
abbrev optional (name : String) (codec : Codec α) (rest : Table β) : Table (Option α × β) :=
  .cons ⟨name, none, some none, codec.optional⟩ rest

/-- The number of fields. -/
def size {τ : Type} : Table τ → Nat
  | .nil => 0
  | .cons _ rest => rest.size + 1

/-- For a name that some field goes by, that field's own name and the test of a value for
its type. -/
def find? {τ : Type} (key : String) : Table τ → Option (String × (Json → Except Fault Unit))
  | .nil => none
  | .cons f rest =>
      if f.answersTo key then some (f.name, fun v => (f.codec.read v).map fun _ => ())
      else rest.find? key

/-- Tests the members of an object one after the other, given the fields met so far.
Members that belong to no field are passed over. -/
def scan (table : Table τ) (met : List String) : List (String × Json) → Except Fault Unit
  | [] => .ok ()
  | (key, v) :: ms =>
      match table.find? key with
      | none => table.scan met ms
      | some (name, test) =>
          if name ∈ met then .error (.duplicate name)
          else do
            test v
            table.scan (name :: met) ms

/-- The fields of an object in the order of the table. -/
def gather {τ : Type} (ms : List (String × Json)) : Table τ → Except Fault τ
  | .nil => .ok ()
  | .cons f rest => do
      let a ← f.take ms
      let b ← rest.gather ms
      pure (a, b)

/-- The fields from the items of an array; `index` of them are already taken from an array of
`length` items, for a structure of `count` fields. -/
def place {τ : Type} (structName : String) (count length index : Nat) :
    Table τ → List Json → Except Fault τ
  | .nil, [] => .ok ()
  | .nil, _ :: _ => .error (.tooLong length)
  | .cons f rest, [] =>
      match f.default with
      | some a => do
          let b ← rest.place structName count length (index + 1) []
          pure (a, b)
      | none => .error (.tooShort index structName count)
  | .cons f rest, v :: vs => do
      let a ← f.codec.read v
      let b ← rest.place structName count length (index + 1) vs
      pure (a, b)

/-- The members of an object, in the order of the table. -/
def members {τ : Type} : Table τ → τ → List (String × Json)
  | .nil, () => []
  | .cons f rest, (a, b) => (f.name, f.codec.write a) :: rest.members b

end Table

/-- A structure: its name, its fields, and how it is put together from them and taken apart. -/
structure Layout (α : Type) where
  {Row : Type}
  structName : String
  table : Table Row
  build : Row → α
  parts : α → Row

namespace Layout

variable {α : Type}

/-- A structure read from JSON. -/
def read (layout : Layout α) : Json → Except Fault α
  | .object ms => do
      layout.table.scan [] ms
      let row ← layout.table.gather ms
      pure (layout.build row)
  | .array items => do
      let row ← layout.table.place layout.structName layout.table.size items.length 0 items
      pure (layout.build row)
  | v => .error (.wrongKind v ("struct " ++ layout.structName))

/-- The members of the object that a structure is written as. -/
def members (layout : Layout α) (a : α) : List (String × Json) :=
  layout.table.members (layout.parts a)

/-- A structure as a value. -/
def codec (layout : Layout α) : Codec α where
  read := layout.read
  write a := .object (layout.members a)

end Layout

end BridgeAudit
