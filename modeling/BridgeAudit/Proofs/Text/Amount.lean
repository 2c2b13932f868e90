import BridgeAudit.Amount
import BridgeAudit.Number.Bits
import BridgeAudit.Proofs.Text.Numeral

/-!
Amounts with a point in them.

* `Bits.fit`, `Bits.power`: a number and a power, unless a number on the way to it takes more than
  so many bits; `Bits.power_eq_some`: no number does if the power itself fits.
* `Amount.inWords`: an amount written by way of such numbers.
* `Amount.chars_of_pos`: the whole units, a point and the decimals.
* `amount_written_exactly`: the digits of what is written are those of the amount, and no number on
  the way takes more than 128 bits.
-/

namespace BridgeAudit

/-! ### Powers in words -/

namespace Bits

variable {bits base acc exponent n : Nat}

/-- A number, unless it takes more than so many bits. -/
def fit (bits n : Nat) : Option Nat := if n < bound bits then some n else none

/-- `acc * base ^ exponent` by squaring the base, unless a number on the way takes more than so many
bits. -/
def power (bits base acc exponent : Nat) : Option Nat :=
  if exponent = 0 then some acc
  else if exponent = 1 then fit bits (acc * base)
  else do
    let acc ← if exponent % 2 = 1 then fit bits (acc * base) else some acc
    let base ← fit bits (base * base)
    power bits base acc (exponent / 2)
termination_by exponent

lemma fit_eq_some (h : n < bound bits) : fit bits n = some n := if_pos h

/-- A power from the power of the square to half the exponent. -/
lemma mul_square_pow (acc base half rest : Nat) :
    acc * base ^ rest * (base * base) ^ half = acc * base ^ (2 * half + rest) := by
  rw [← Nat.pow_two, ← Nat.pow_mul, Nat.mul_assoc, ← Nat.pow_add, Nat.add_comm rest]

/-- If the power fits, so does each number on the way to it: the base is only squared where the
square is a factor of the power. -/
lemma power_eq_some (hbase : 0 < base) (hacc : 0 < acc) (h : acc * base ^ exponent < bound bits) :
    power bits base acc exponent = some (acc * base ^ exponent) := by
  induction exponent using Nat.strong_induction_on generalizing base acc with
  | _ exponent ih =>
      rw [power]
      split
      next hzero => simp [hzero]
      split
      next hone =>
        rw [hone, Nat.pow_one] at h ⊢
        exact fit_eq_some h
      next hzero hone =>
        have hfactor : ∀ k ≤ exponent, acc * base ^ k < bound bits := fun k hk =>
          (Nat.mul_le_mul_left acc (Nat.pow_le_pow_right hbase hk)).trans_lt h
        have hsquare : base * base < bound bits := by
          calc base * base ≤ acc * (base * base) := Nat.le_mul_of_pos_left _ hacc
            _ = acc * base ^ 2 := by rw [Nat.pow_two]
            _ < bound bits := hfactor 2 (by omega)
        -- what is left to do, with the factor that the parity of the exponent asks for
        have hnext (rest : Nat) (hrest : exponent = 2 * (exponent / 2) + rest) :
            power bits (base * base) (acc * base ^ rest) (exponent / 2) =
              some (acc * base ^ exponent) := by
          have hpower := mul_square_pow acc base (exponent / 2) rest
          rw [← hrest] at hpower
          rw [ih _ (by omega) (Nat.mul_pos hbase hbase) (Nat.mul_pos hacc (Nat.pow_pos hbase))
            (hpower ▸ h), hpower]
        rw [fit_eq_some hsquare]
        split
        · have hodd := hnext 1 (by omega)
          have hfits := hfactor 1 (by omega)
          rw [Nat.pow_one] at hodd hfits
          rw [fit_eq_some hfits]
          exact hodd
        · simpa using hnext 0 (by omega)

end Bits

/-! ### What is written -/

namespace Amount

open Digits

variable {amount decimals : Nat}

/-- An amount written with the given number of decimals, unless a number on the way takes more than
so many bits. -/
def inWords (bits amount decimals : Nat) : Option (List Char) :=
  if decimals = 0 then some (Digits.write amount)
  else do
    let scale ← Bits.power bits 10 1 decimals
    let whole ← Bits.fit bits (amount / scale)
    let part ← Bits.fit bits (amount % scale)
    pure (Digits.write whole ++ '.' :: padded decimals part)

/-- Without decimals an amount is its numeral. -/
lemma chars_zero (amount : Nat) : chars amount 0 = Digits.write amount := rfl

/-- With decimals it is the numeral of the whole units, a point and the decimals. -/
lemma chars_of_pos (h : 0 < decimals) (amount : Nat) : chars amount decimals =
    Digits.write (amount / 10 ^ decimals) ++ '.' :: padded decimals (amount % 10 ^ decimals) :=
  if_neg h.ne'

lemma filter_eq_self {cs : List Char} (h : ∀ c ∈ cs, c.isDigit) : cs.filter (· ≠ '.') = cs := by
  refine List.filter_eq_self.2 fun c hc => decide_eq_true ?_
  rintro rfl
  exact absurd (h _ hc) (by decide)

/-- Without the point, the digits stand for the amount. -/
lemma value_filter_chars (amount decimals : Nat) :
    value ((chars amount decimals).filter (· ≠ '.')) = amount := by
  rcases Nat.eq_zero_or_pos decimals with rfl | hpos
  · rw [chars_zero, filter_eq_self fun _ => isDigit_of_mem_write, value_write]
  · have hpart : (padded decimals (amount % 10 ^ decimals)).length = decimals :=
      length_padded hpos (Nat.mod_lt _ (Nat.pow_pos (by decide)))
    rw [chars_of_pos hpos, List.filter_append, List.filter_cons_of_neg (by decide),
      filter_eq_self fun _ => isDigit_of_mem_write, filter_eq_self fun _ => isDigit_of_mem_padded,
      value_append, hpart, value_write, value_padded]
    exact Nat.div_add_mod' amount (10 ^ decimals)

/-- No number on the way takes more bits than the amount and the power of ten do. -/
lemma inWords_eq_some {bits : Nat} (hamount : amount < Bits.bound bits)
    (hscale : 10 ^ decimals < Bits.bound bits) :
    inWords bits amount decimals = some (chars amount decimals) := by
  rcases Nat.eq_zero_or_pos decimals with rfl | hpos
  · rfl
  · have hpower : Bits.power bits 10 1 decimals = some (1 * 10 ^ decimals) :=
      Bits.power_eq_some (by decide) (by decide) (by rwa [Nat.one_mul])
    have hwhole := Bits.fit_eq_some ((Nat.div_le_self amount (10 ^ decimals)).trans_lt hamount)
    have hpart := Bits.fit_eq_some ((Nat.mod_le amount (10 ^ decimals)).trans_lt hamount)
    rw [inWords, if_neg hpos.ne', hpower, Nat.one_mul, chars_of_pos hpos]
    simp only [Option.bind_eq_bind, Option.bind_some, hwhole, hpart]
    rfl

end Amount

/-- **Amounts are written exactly.** An amount of 128 bits in units of up to 38 decimals is written
as its numeral if there are no decimals; otherwise as the numeral of the whole units, a point and
just as many digits as there are decimals. Without the point its digits stand for the amount, so
that with the same decimals no other amount is written alike. No number on the way takes more than
128 bits. -/
theorem amount_written_exactly {amount decimals : Nat} (hamount : amount < 2 ^ 128)
    (hdecimals : decimals ≤ 38) :
    let text := (Amount.write amount decimals).toList
    (decimals = 0 → Digits.IsNumeral text amount) ∧
    (0 < decimals → ∃ whole part, text = whole ++ '.' :: part ∧
      Digits.IsNumeral whole (amount / 10 ^ decimals) ∧
      part.length = decimals ∧ ∀ c ∈ part, c.isDigit) ∧
    Digits.value (text.filter (· ≠ '.')) = amount ∧
    (∀ other, Amount.write other decimals = Amount.write amount decimals → other = amount) ∧
    Amount.inWords 128 amount decimals = some text := by
  intro text
  have htext : text = Amount.chars amount decimals := String.toList_ofList
  rw [htext]
  refine ⟨?_, fun hpos => ?_, Amount.value_filter_chars amount decimals, fun other hother => ?_, ?_⟩
  · rintro rfl
    exact Digits.isNumeral_write amount
  · exact ⟨_, _, Amount.chars_of_pos hpos amount, Digits.isNumeral_write _,
      Digits.length_padded hpos (Nat.mod_lt _ (Nat.pow_pos (by decide))),
      fun _ => Digits.isDigit_of_mem_padded⟩
  · have hchars : Amount.chars other decimals = Amount.chars amount decimals :=
      String.ofList_injective hother
    rw [← Amount.value_filter_chars other decimals, hchars, Amount.value_filter_chars]
  · refine Amount.inWords_eq_some hamount ?_
    calc 10 ^ decimals ≤ 10 ^ 38 := Nat.pow_le_pow_right (by decide) hdecimals
      _ < Bits.bound 128 := by decide

/-- The largest amount, with the most decimals. -/
theorem largestAmount_written :
    let amount := 2 ^ 128 - 1
    let text := "3.40282366920938463463374607431768211455"
    amount < 2 ^ 128 ∧ 38 ≤ 38 ∧ Amount.write amount 38 = text ∧
      Digits.value (text.toList.filter (· ≠ '.')) = amount ∧
      (∀ other, Amount.write other 38 = text → other = amount) ∧
      Amount.inWords 128 amount 38 = some text.toList := by
  intro amount text
  have hamount : amount < 2 ^ 128 := by decide
  have htext : Amount.write amount 38 = text := by decide +kernel
  obtain ⟨-, -, hvalue, hother, hwords⟩ := amount_written_exactly hamount (le_refl 38)
  rw [htext] at hvalue hother hwords
  exact ⟨hamount, le_rfl, htext, hvalue, hother, hwords⟩

end BridgeAudit
