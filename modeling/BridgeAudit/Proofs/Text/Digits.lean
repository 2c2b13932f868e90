import Mathlib.Tactic
import BridgeAudit.Text.Digits

/-!
Rows of decimal digits.

* `Digits.Row`: so many digits, and `Digits.Row.number`, what they stand for.
* `Digits.value_append`, `Digits.value_lt`: what stands behind a row moves it by as many places, and
  a row stands for less than the next power of ten.
* `Digits.Row.padded`: the numeral of a number with zeros in front, as a row.
-/

namespace BridgeAudit

namespace Digits

variable {cs ds : List Char} {c : Char} {count n : Nat}

/-! ### What a row stands for -/

lemma isDigit_iff : c.isDigit ↔ 48 ≤ c.toNat ∧ c.toNat ≤ 57 := by
  simp only [Char.isDigit, Bool.and_eq_true, decide_eq_true_eq]
  rfl

@[simp] lemma value_nil : value [] = 0 := rfl

/-- A row in front of another one stands for as many powers of ten more as that one is long. -/
lemma value_append (cs ds : List Char) :
    value (cs ++ ds) = value cs * 10 ^ ds.length + value ds := by
  rw [value, Nat.ofDigitChars_append, Nat.ofDigitChars_eq_ofDigitChars_zero, Nat.mul_comm]
  rfl

/-- A row stands for less than the next power of ten. -/
lemma value_lt (h : ∀ c ∈ cs, c.isDigit) : value cs < 10 ^ cs.length := by
  induction cs using List.reverseRecOn with
  | nil => exact Nat.one_pos
  | append_singleton cs c ih =>
      have hc := isDigit_iff.1 (h c (by simp))
      have hlt := ih fun d hd => h d (List.mem_append_left _ hd)
      have hlast : value [c] = c.toNat - 48 := by
        simp [value, Nat.ofDigitChars_cons]
      rw [value_append, hlast, List.length_append, List.length_singleton, Nat.pow_succ]
      omega

/-! ### Rows of a given length -/

/-- So many decimal digits. -/
structure Row (count : Nat) where
  chars : List Char
  isDigit : ∀ c ∈ chars, c.isDigit
  length_eq : chars.length = count

/-- The number that a row of digits stands for. -/
def Row.number (r : Row count) : Nat := value r.chars

lemma isDigit_of_mem_padded (h : c ∈ padded count n) : c.isDigit := by
  rw [padded, padLeft, List.mem_append] at h
  rcases h with h | h
  · rw [List.eq_of_mem_replicate h]
    rfl
  · exact Nat.isDigit_of_mem_toDigits (by decide) le_rfl h

lemma length_padded (hcount : 0 < count) (h : n < 10 ^ count) :
    (padded count n).length = count := by
  have hlength : (write n).length ≤ count := (Nat.length_toDigits_le_iff (by decide) hcount).2 h
  rw [padded, padLeft, List.length_append, List.length_replicate]
  omega

/-- Zeros in front do not change what a numeral stands for. -/
@[simp] lemma value_padded (count n : Nat) : value (padded count n) = n := by
  rw [padded, padLeft, value_append]
  simp only [value, Nat.ofDigitChars_replicate_zero, write, Nat.ofDigitChars_ten_toDigits]
  omega

/-- The given characters as a row. -/
def Row.ofChars (cs : List Char) (h : cs.all Char.isDigit) : Row cs.length where
  chars := cs
  isDigit := List.all_eq_true.1 h
  length_eq := rfl

/-- The numeral of a number with zeros in front, up to the given width. -/
def Row.padded (n : Nat) (hcount : 0 < count) (h : n < 10 ^ count) : Row count where
  chars := Digits.padded count n
  isDigit _ := isDigit_of_mem_padded
  length_eq := length_padded hcount h

@[simp] lemma Row.number_padded (hcount : 0 < count) (h : n < 10 ^ count) :
    (Row.padded n hcount h).number = n := value_padded count n

end Digits

end BridgeAudit
