/-!
White space at the ends of a text.

* `Blank.is`: the characters with the Unicode property White_Space.
* `Blank.skip`, `Blank.trim`: a text without the blanks at its front, and
  without those at either end.
-/

namespace BridgeAudit

namespace Blank

/-- The ranges of the Unicode property White_Space, both ends included. -/
def ranges : List (Nat × Nat) :=
  [(0x9, 0xd), (0x20, 0x20), (0x85, 0x85), (0xa0, 0xa0), (0x1680, 0x1680), (0x2000, 0x200a),
    (0x2028, 0x2029), (0x202f, 0x202f), (0x205f, 0x205f), (0x3000, 0x3000)]

/-- A character counts as blank if it has the property White_Space. -/
def is (c : Char) : Bool := ranges.any fun r => r.1 ≤ c.toNat && c.toNat ≤ r.2

/-- A text without the blanks at its front. -/
def skip (cs : List Char) : List Char := cs.dropWhile is

/-- A text without the blanks at its front and at its end. -/
def trim (cs : List Char) : List Char := (skip (skip cs).reverse).reverse

example : is '\t' ∧ is ' ' ∧ is '\u00a0' ∧ is '\u3000' ∧ ¬ is '\u200b' ∧ ¬ is 'x' := by decide

end Blank

end BridgeAudit
