/-!
How many numbers fit a number of bits.

* `Bits.bound`: the first number that does not fit.
-/

namespace BridgeAudit

namespace Bits

/-- The first number that does not fit so many bits. -/
def bound (bits : Nat) : Nat := Nat.pow 2 bits

end Bits

end BridgeAudit
