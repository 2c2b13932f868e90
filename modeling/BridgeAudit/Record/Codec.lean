import BridgeAudit.Record.Fault

/-!
Values as JSON.

* `Codec`: a way to read values of a type from JSON, and to write them.
* `Codec.word`, `Codec.signed`, `Codec.byte`: integers of 64 bits without and with a sign, and
  of eight bits. An integer is read from an integer in its range and from nothing else.
* `Codec.text`, `Codec.bytes`, `Codec.optional`: strings, arrays of bytes, and values for
  which `null` may stand.
-/

namespace BridgeAudit

/-- A way to read values of a type from JSON, and to write them. -/
structure Codec (α : Type) where
  read : Json → Except Fault α
  write : α → Json

namespace Codec

variable {α : Type}

/-- An integer of at least `low` and below `high`. -/
def integerIn (wanted : String) (low high : Int) : Json → Except Fault Int
  | .number (.integer i) => if low ≤ i ∧ i < high then .ok i else .error (.outOfRange i wanted)
  | v => .error (.wrongKind v wanted)

/-- Integers of 64 bits without a sign. -/
def word : Codec UInt64 where
  read v := (integerIn "u64" 0 (Bits.bound 64) v).map fun i => UInt64.ofNat i.toNat
  write n := .ofNat n.toNat

/-- Integers of 64 bits with a sign. -/
def signed : Codec Int64 where
  read v := (integerIn "i64" (-Bits.bound 63) (Bits.bound 63) v).map Int64.ofInt
  write n := .ofInt n.toInt

/-- Integers of eight bits without a sign. -/
def byte : Codec UInt8 where
  read v := (integerIn "u8" 0 256 v).map fun i => UInt8.ofNat i.toNat
  write n := .ofNat n.toNat

/-- Strings. -/
def text : Codec String where
  read
    | .string s => .ok s
    | v => .error (.wrongKind v "a string")
  write := .string

/-- Arrays of bytes. -/
def bytes : Codec (List UInt8) where
  read
    | .array items => items.mapM byte.read
    | v => .error (.wrongKind v "a sequence")
  write bs := .array (bs.map byte.write)

/-- Values for which `null` may stand. -/
def optional (c : Codec α) : Codec (Option α) where
  read
    | .null => .ok none
    | v => (c.read v).map some
  write
    | none => .null
    | some a => c.write a

end Codec

end BridgeAudit
