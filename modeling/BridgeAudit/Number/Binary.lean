import BridgeAudit.Number.Bits

/-!
Binary fractions of 64 bits.

A finite one is a sign and a count of units, a unit being `2 ^ -1074`, the
smallest positive one. Of a count only the 53 leading binary digits may be
different from zero, so every result is rounded to such a count, to the nearer
neighbour and on a tie to the even one.

* `Binary.round`: the rounding of an exact quotient of units.
* `Binary.scaled`: a natural number times a power of ten, the power taken in steps
  that are themselves binary fractions, each step rounded.
-/

namespace BridgeAudit

/-- A finite binary fraction: `units` counts multiples of `2 ^ -1074`. -/
structure Binary where
  negative : Bool
  units : Nat
  deriving DecidableEq, Repr, Inhabited

namespace Binary

/-- The number of units in one. -/
def one : Nat := Bits.bound 1074

/-- The first count of units that is too large to be finite. -/
def limit : Nat := Bits.bound 1024 * one

/-- The natural number nearest to `num / den`, the even one on a tie. -/
def nearest (num den : Nat) : Nat :=
  let q := num / den
  let r := num % den
  if 2 * r < den then q else if den < 2 * r then q + 1 else q + q % 2

/-- The exponent of the last binary digit that a count of this size keeps. -/
def lastPlace (units : Nat) : Nat := Nat.log2 units - 52

/-- The count of 53 leading binary digits nearest to `num / den` units. -/
def round (num den : Nat) : Nat :=
  let step := Bits.bound (lastPlace (num / den))
  nearest num (den * step) * step

/-- The count of units of a natural number, rounded. -/
def ofNat (n : Nat) : Nat := round (n * one) 1

/-- The product of two counts of units, rounded. -/
def mul (a b : Nat) : Nat := round (a * b) one

/-- The quotient of two counts of units, rounded. -/
def div (a b : Nat) : Nat := round (a * one) b

/-- The largest power of ten that is finite. -/
def largestPower : Nat := 308

/-- `units` times `10 ^ exponent`, in steps of at most `10 ^ 308`, or `none` if the result is
too large. -/
def shift (units : Nat) (exponent : Int) : Option Nat :=
  if exponent.natAbs ≤ largestPower then
    let power := ofNat (Nat.pow 10 exponent.natAbs)
    if 0 ≤ exponent then
      let product := mul units power
      if product < limit then some product else none
    else some (div units power)
  else if units = 0 then some 0
  else if 0 ≤ exponent then none
  else shift (div units (ofNat (Nat.pow 10 largestPower))) (exponent + largestPower)
termination_by exponent.natAbs
decreasing_by simp only [largestPower] at *; omega

/-- `significand * 10 ^ exponent`, or `none` if the result is too large. -/
def scaled (significand : Nat) (exponent : Int) : Option Nat :=
  shift (ofNat significand) exponent

/-- The nearest natural number is at most half a unit away. -/
theorem nearest_near {num den : Nat} (h : 0 < den) :
    2 * num ≤ 2 * (nearest num den * den) + den ∧ 2 * (nearest num den * den) ≤ 2 * num + den := by
  have hq : den * (num / den) + num % den = num := Nat.div_add_mod num den
  have hr : num % den < den := Nat.mod_lt num h
  have hm : num / den * den = den * (num / den) := Nat.mul_comm ..
  have hp : (num / den) % 2 = 0 ∨ (num / den) % 2 = 1 := by omega
  simp only [nearest]
  split
  · omega
  · split
    · simp only [Nat.add_mul]; omega
    · rcases hp with h0 | h1
      · simp only [h0, Nat.add_zero]; omega
      · simp only [h1, Nat.add_mul]; omega

end Binary

end BridgeAudit
