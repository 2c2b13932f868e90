import Mathlib.Tactic
import BridgeAudit.Calendar.Reader
import BridgeAudit.Proofs.Text.Blank

/-!
Reading the parts of a date and a clock time.

* `Reader.digitsUpTo_append`: a row of digits is read up to its end.
* `Reader.exactly_row`, `Reader.looseNumber_row`, `Reader.looseYear_row`: a row of the right length
  is read as its number, in the exact form and in the loose one.
* `Reader.fraction_pointed`, `Reader.nanosOf_eq`: a fraction of a second is read as what is left of
  it when it is cut to nine digits.
-/

namespace BridgeAudit

namespace Reader

open Digits (Row)

variable {ds rest : List Char} {count : Nat}

/-- What follows does not go on with a number or a fraction. -/
def Halts (rest : List Char) : Prop := ∀ c cs, rest = c :: cs → c.isDigit = false ∧ c ≠ '.'

lemma halts_nil : Halts [] := by
  rintro c cs ⟨⟩

lemma halts_cons {c : Char} (hc : c.isDigit = false) (hc' : c ≠ '.') : Halts (c :: rest) := by
  rintro d cs ⟨⟩
  exact ⟨hc, hc'⟩

/-! ### Numbers -/

/-- A row of digits is read up to its end, if as many digits are asked for or none follows. -/
lemma digitsUpTo_append (hds : ∀ c ∈ ds, c.isDigit) (hlength : ds.length ≤ count)
    (hend : ds.length = count ∨ Halts rest) : digitsUpTo count (ds ++ rest) = (ds, rest) := by
  induction ds generalizing count with
  | nil =>
      cases count with
      | zero => rfl
      | succ count =>
          cases rest with
          | nil => rfl
          | cons c cs =>
              have hhalts := hend.resolve_left (by simp)
              simp [digitsUpTo, (hhalts c cs rfl).1]
  | cons c ds ih =>
      cases count with
      | zero => simp at hlength
      | succ count =>
          rw [List.forall_mem_cons] at hds
          have htail := ih hds.2 (Nat.le_of_succ_le_succ hlength)
            (hend.imp_left fun h => Nat.succ.inj h)
          simp [digitsUpTo, hds.1, htail]

lemma exactly_row (r : Row count) (rest : List Char) :
    exactly count (r.chars ++ rest) = some (r.number, rest) := by
  rw [exactly, digitsUpTo_append r.isDigit r.length_eq.le (.inl r.length_eq)]
  exact if_pos r.length_eq

/-- A row that is not empty starts with a digit. -/
lemma row_head (r : Row count) (h : 0 < count) :
    ∃ c cs, r.chars = c :: cs ∧ c.isDigit := by
  cases hr : r.chars with
  | nil =>
      have hlength := r.length_eq
      rw [hr, List.length_nil] at hlength
      omega
  | cons c cs => exact ⟨c, cs, rfl, r.isDigit c (by simp [hr])⟩

lemma row_starts (r : Row count) (h : 0 < count) : Blank.Starts r.chars := by
  obtain ⟨c, cs, hr, hc⟩ := row_head r h
  exact ⟨c, cs, hr, Blank.is_of_isDigit hc⟩

/-- Digits end with a digit. -/
lemma ends_of_isDigit (hds : ∀ c ∈ ds, c.isDigit) (h : ds ≠ []) : Blank.Ends ds :=
  ⟨ds.dropLast, ds.getLast h, (List.dropLast_append_getLast h).symm,
    Blank.is_of_isDigit (hds _ (List.getLast_mem h))⟩

lemma row_ends (r : Row count) (h : 0 < count) : Blank.Ends r.chars := by
  obtain ⟨c, cs, hr, -⟩ := row_head r h
  exact ends_of_isDigit r.isDigit (by simp [hr])

lemma skip_row (r : Row count) (h : 0 < count) (rest : List Char) :
    Blank.skip (r.chars ++ rest) = r.chars ++ rest := by
  obtain ⟨c, cs, hr, hc⟩ := row_head r h
  rw [hr, List.cons_append, Blank.skip_cons_of_not (Blank.is_of_isDigit hc)]

lemma atMost_row (r : Row count) (h : 0 < count) (rest : List Char) :
    atMost count (r.chars ++ rest) = some (r.number, rest) := by
  obtain ⟨c, cs, hr, -⟩ := row_head r h
  simp only [atMost, digitsUpTo_append r.isDigit r.length_eq.le (.inl r.length_eq)]
  rw [Row.number, hr]

lemma looseNumber_row (r : Row 2) (rest : List Char) :
    looseNumber (r.chars ++ rest) = some (r.number, rest) := by
  rw [looseNumber, skip_row r (by decide), atMost_row r (by decide)]

/-- Without a sign a year has up to four digits. -/
lemma looseYear_row (r : Row 4) (rest : List Char) :
    looseYear (r.chars ++ rest) = some ((r.number : Int), rest) := by
  have hread := atMost_row r (by decide) rest
  obtain ⟨c, cs, hr, hc⟩ := row_head r (by decide)
  rw [looseYear, skip_row r (by decide)]
  rw [hr, List.cons_append] at hread ⊢
  split
  next h =>
    obtain ⟨rfl, -⟩ := List.cons.inj h
    exact absurd hc (by decide)
  next h =>
    obtain ⟨rfl, -⟩ := List.cons.inj h
    exact absurd hc (by decide)
  · rw [hread]
    rfl

/-! ### Fractions of a second -/

/-- A fraction of a second as it is written: nothing at all, or a point and digits. -/
def pointed : List Char → List Char
  | [] => []
  | ds => '.' :: ds

lemma ends_append_pointed {cs : List Char} (h : Blank.Ends cs) (hds : ∀ c ∈ ds, c.isDigit) :
    Blank.Ends (cs ++ pointed ds) := by
  cases ds with
  | nil => simpa [pointed] using h
  | cons c ds => exact ((ends_of_isDigit hds (List.cons_ne_nil c ds)).cons '.').append cs

lemma fraction_pointed (hds : ∀ c ∈ ds, c.isDigit) (hrest : Halts rest) :
    fraction (pointed ds ++ rest) = some (nanosOf ds, rest) := by
  cases ds with
  | nil =>
      cases rest with
      | nil => rfl
      | cons c cs =>
          have hpoint := (hrest c cs rfl).2
          simp only [pointed, List.nil_append]
          rw [fraction]
          · rfl
          · rintro _ ⟨⟩
            exact hpoint rfl
  | cons c ds =>
      have hread : digitsUpTo (c :: ds ++ rest).length (c :: ds ++ rest) = (c :: ds, rest) :=
        digitsUpTo_append hds (by simp) (.inr hrest)
      simp only [pointed, List.cons_append] at hread ⊢
      rw [fraction, hread]

/-- A fraction is cut to nine digits. -/
lemma nanosOf_eq (hds : ∀ c ∈ ds, c.isDigit) :
    nanosOf ds = Digits.value ds * 10 ^ 9 / 10 ^ ds.length := by
  rw [nanosOf, Nat.pow_eq]
  obtain hshort | hlong := Nat.le_total ds.length 9
  · -- zeros are put behind the digits
    obtain ⟨k, hk⟩ := Nat.exists_eq_add_of_le hshort
    rw [List.take_of_length_le hshort, hk, Nat.add_sub_cancel_left, pow_add, ← mul_assoc,
      mul_right_comm, Nat.mul_div_cancel _ (by positivity)]
  · -- digits are cut off
    have hlt := Digits.value_lt fun c hc => hds c (List.mem_of_mem_drop (i := 9) hc)
    have hvalue := Digits.value_append (ds.take 9) (ds.drop 9)
    rw [List.take_append_drop] at hvalue
    rw [List.length_drop] at hlt hvalue
    obtain ⟨k, hk⟩ := Nat.exists_eq_add_of_le hlong
    rw [hk, Nat.add_sub_cancel_left] at hlt hvalue
    rw [List.length_take, Nat.min_eq_left hlong, Nat.sub_self, pow_zero, mul_one, hk, pow_add,
      Nat.mul_comm (10 ^ 9) (10 ^ k), Nat.mul_div_mul_right _ _ (by positivity), hvalue,
      Nat.mul_comm _ (10 ^ k), Nat.mul_add_div (by positivity), Nat.div_eq_of_lt hlt, Nat.add_zero]

lemma nanosOf_lt (hds : ∀ c ∈ ds, c.isDigit) : nanosOf ds < nanosPerSecond := by
  rw [nanosOf_eq hds, Nat.div_lt_iff_lt_mul (by positivity), Nat.mul_comm (Digits.value ds)]
  exact Nat.mul_lt_mul_of_pos_left (Digits.value_lt hds) (by positivity)

end Reader

end BridgeAudit
