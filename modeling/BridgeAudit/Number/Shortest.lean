import BridgeAudit.Number.Binary

/-!
The shortest decimal that reads back as a given binary fraction.

A decimal reads back as the fraction if it lies in the interval of the numbers
that round to it, the ends included where the fraction is even. For one, two, …
seventeen digits the two neighbours of the fraction on that decimal grid are
tested; the first grid with a hit wins, and of two hits the nearer one.

* `Shortest.digits`: the digits and the exponent of the last one.
* `Shortest.write`: the text, positional from `10 ^ -5` up to `10 ^ 16` and with an exponent
  outside.
-/

namespace BridgeAudit

namespace Shortest

open Binary (one lastPlace)

/-- Four times the distance from the fraction down to the end of its interval, in
units: half a step, or a quarter of one at a power of two. -/
def below (units : Nat) : Nat :=
  let step := Bits.bound (lastPlace units)
  if units = Bits.bound 52 * step ∧ 1 < step then step else 2 * step

/-- Four times the distance from the fraction up to the end of its interval. -/
def above (units : Nat) : Nat := 2 * Bits.bound (lastPlace units)

/-- The factor that makes every grid of the search a grid of natural numbers. -/
def factor : Nat := Nat.pow 10 341

/-- The exponent of the first decimal digit, plus 324. -/
def leading (units : Nat) : Nat := (Nat.toDigits 10 (units * Nat.pow 10 324 / one)).length - 1

/-- The decimal of `count` digits nearest to the fraction among its two neighbours that
lie in the interval, with its exponent plus 341. -/
def onGrid (units count : Nat) : Option (Nat × Nat) :=
  let grid := leading units + 18 - count
  let size := 4 * one * Nat.pow 10 grid
  let middle := 4 * units * factor
  let lower := (4 * units - below units) * factor
  let upper := (4 * units + above units) * factor
  let even := units / Bits.bound (lastPlace units) % 2 = 0
  let inside (k : Nat) : Bool :=
    lower < k * size && k * size < upper || (even && (k * size = lower || k * size = upper))
  let decimal (k : Nat) : Nat × Nat := if k = Nat.pow 10 count then (1, grid + count) else (k, grid)
  let k := middle / size
  match inside k, inside (k + 1) with
  | true, true =>
      let gap := middle - k * size
      let gap' := (k + 1) * size - middle
      some (decimal (if gap < gap' ∨ gap = gap' ∧ k % 2 = 0 then k else k + 1))
  | true, false => some (decimal k)
  | false, true => some (decimal (k + 1))
  | false, false => none

/-- What has been found on the grids, as digits and the exponent of the last one. -/
def spelled : Option (Nat × Nat) → List Char × Int
  | some (k, grid) => (Nat.toDigits 10 k, (grid : Int) - 341)
  | none => (['0'], 0)

/-- The shortest decimal of a positive fraction: its digits and the exponent of the
last one. -/
def digits (units : Nat) : List Char × Int :=
  spelled ((List.range 17).findSome? fun n => onGrid units (n + 1))

/-- Digits with the point after the first one, where more follow. -/
def pointed : List Char → List Char
  | [] => []
  | [d] => [d]
  | d :: ds => d :: '.' :: ds

/-- The text of a row of digits whose last one has the given exponent. -/
def layout (ds : List Char) (last : Int) : List Char :=
  let first := last + ds.length - 1
  if first < -5 ∨ 16 ≤ first then
    pointed ds ++ 'e' :: (if 0 ≤ first then '+' else '-') :: Nat.toDigits 10 first.natAbs
  else if first < 0 then
    ['0', '.'] ++ List.replicate (first.natAbs - 1) '0' ++ ds
  else if 0 ≤ last then
    ds ++ List.replicate last.toNat '0' ++ ['.', '0']
  else
    ds.take (first.toNat + 1) ++ '.' :: ds.drop (first.toNat + 1)

/-- The text of a binary fraction. -/
def write (x : Binary) : List Char :=
  (if x.negative then ['-'] else []) ++
    if x.units = 0 then ['0', '.', '0']
    else
      let decimal := digits x.units
      layout decimal.1 decimal.2

end Shortest

end BridgeAudit
