import BridgeAudit.Proofs.Text.Digits

/-!
Numerals of natural numbers.

* `Digits.IsNumeral`: the digits of a number, as few as there can be; `Digits.isNumeral_write`: they
  are what is written.
* `Digits.Spells`: an optional plus sign and any digits that stand for a number.
* `Digits.readWord_eq_ok_iff`: a text is read as a number below the bound if and only if it spells
  that number.
-/

namespace BridgeAudit

namespace Digits

variable {cs : List Char} {c : Char} {bound acc n : Nat}

/-! ### Writing -/

/-- The digits of a number, with no zero in front of any other digit. -/
structure IsNumeral (cs : List Char) (n : Nat) : Prop where
  isDigit : ∀ c ∈ cs, c.isDigit
  ne_nil : cs ≠ []
  shortest : ∀ ds, cs = '0' :: ds → ds = []
  value_eq : value cs = n

@[simp] lemma value_write (n : Nat) : value (write n) = n := Nat.ofDigitChars_ten_toDigits

lemma isDigit_of_mem_write (h : c ∈ write n) : c.isDigit :=
  Nat.isDigit_of_mem_toDigits (by decide) le_rfl h

/-- The first digit counts for as many powers of ten as there are digits behind it. -/
lemma value_cons (c : Char) (cs : List Char) :
    value (c :: cs) = (c.toNat - '0'.toNat) * 10 ^ cs.length + value cs := by
  rw [← List.singleton_append, value_append]
  simp [value, Nat.ofDigitChars_cons]

/-- What is written of a number is its numeral. -/
lemma isNumeral_write (n : Nat) : IsNumeral (write n) n where
  isDigit _ := isDigit_of_mem_write
  ne_nil := Nat.toDigits_ne_nil
  shortest ds hds := by
    by_contra hne
    -- without the zero, fewer digits than are written would do
    have hdigits : ∀ c ∈ ds, c.isDigit := fun c hc =>
      isDigit_of_mem_write (n := n) (hds ▸ List.mem_cons_of_mem _ hc)
    have hvalue : value ds = n := by
      simpa [hds, value_cons] using value_write n
    have hlength : (write n).length ≤ ds.length :=
      (Nat.length_toDigits_le_iff (by decide) (List.length_pos_of_ne_nil hne)).2
        (hvalue ▸ value_lt hdigits)
    rw [hds, List.length_cons] at hlength
    omega
  value_eq := value_write n

/-! ### Reading -/

/-- An optional plus sign and then one or more digits, which stand for the number. -/
def Spells (cs : List Char) (n : Nat) : Prop :=
  ∃ ds, (cs = ds ∨ cs = '+' :: ds) ∧ ds ≠ [] ∧ (∀ c ∈ ds, c.isDigit) ∧ value ds = n

/-- Digits are read behind a number as long as all of them together stay below the bound. A number
that has reached it does not get smaller with more digits, so it makes no difference that the
reading stops there. -/
lemma readFrom_eq_ok_iff (hacc : acc < bound) :
    readFrom bound acc cs = .ok n ↔
      (∀ c ∈ cs, c.isDigit) ∧ acc * 10 ^ cs.length + value cs = n ∧ n < bound := by
  induction cs generalizing acc with
  | nil =>
      rw [readFrom, Except.ok.injEq]
      constructor
      · rintro rfl
        simpa using hacc
      · rintro ⟨-, hn, -⟩
        simpa using hn
  | cons c cs ih =>
      rw [readFrom, List.forall_mem_cons]
      by_cases hc : c.isDigit
      · have hnumber : acc * 10 ^ (c :: cs).length + value (c :: cs) =
            (acc * 10 + (c.toNat - '0'.toNat)) * 10 ^ cs.length + value cs := by
          rw [value_cons, List.length_cons]
          ring
        rw [if_pos hc, hnumber]
        dsimp only
        by_cases hnext : acc * 10 + (c.toNat - '0'.toNat) < bound
        · rw [if_pos hnext, ih hnext, and_iff_right hc]
        · rw [if_neg hnext]
          refine iff_of_false nofun ?_
          rintro ⟨-, hn, hlt⟩
          have hle := Nat.le_mul_of_pos_right (acc * 10 + (c.toNat - '0'.toNat))
            (Nat.pow_pos (n := cs.length) (show 0 < 10 by decide))
          omega
      · rw [if_neg hc]
        exact iff_of_false nofun fun h => hc h.1.1

/-- A plus sign stands in front of digits. -/
lemma spells_plus_iff :
    Spells ('+' :: cs) n ↔ cs ≠ [] ∧ (∀ c ∈ cs, c.isDigit) ∧ value cs = n := by
  constructor
  · rintro ⟨ds, rfl | hds, hne, hdigits, hn⟩
    · exact absurd (hdigits '+' List.mem_cons_self) (by decide)
    · obtain rfl := List.tail_eq_of_cons_eq hds
      exact ⟨hne, hdigits, hn⟩
  · rintro ⟨hne, hdigits, hn⟩
    exact ⟨cs, .inr rfl, hne, hdigits, hn⟩

/-- Without a plus sign there is nothing but digits. -/
lemma spells_iff_of_ne (h : c ≠ '+') :
    Spells (c :: cs) n ↔ (∀ d ∈ c :: cs, d.isDigit) ∧ value (c :: cs) = n := by
  constructor
  · rintro ⟨ds, rfl | hds, -, hdigits, hn⟩
    · exact ⟨hdigits, hn⟩
    · exact absurd (List.head_eq_of_cons_eq hds) h
  · rintro ⟨hdigits, hn⟩
    exact ⟨c :: cs, .inl rfl, List.cons_ne_nil c cs, hdigits, hn⟩

/-- A text is read as a number below the bound if and only if it spells that number. -/
theorem readWord_eq_ok_iff (hbound : 0 < bound) :
    readWord bound cs = .ok n ↔ Spells cs n ∧ n < bound := by
  have hdigits (ds : List Char) : readFrom bound 0 ds = .ok n ↔
      ((∀ c ∈ ds, c.isDigit) ∧ value ds = n) ∧ n < bound := by
    rw [readFrom_eq_ok_iff hbound, Nat.zero_mul, Nat.zero_add, and_assoc]
  unfold readWord
  split
  · refine iff_of_false nofun ?_
    rintro ⟨⟨ds, rfl | hds, hne, -⟩, -⟩
    · exact hne rfl
    · cases hds
  · rw [spells_plus_iff]
    exact iff_of_false nofun fun h => h.1.1 rfl
  next ds hne =>
    have hds : ds ≠ [] := by
      rintro rfl
      exact hne rfl
    rw [spells_plus_iff, and_iff_right hds, hdigits]
  next hnil _ hplus =>
    obtain ⟨c, cs, rfl⟩ := List.exists_cons_of_ne_nil hnil
    rw [spells_iff_of_ne fun h => hplus cs (h ▸ rfl), hdigits]

end Digits

end BridgeAudit
