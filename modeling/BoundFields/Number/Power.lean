/-!
# Powers of two and of ten

The units of the two number systems that doubles and decimals are written in.
-/

set_option autoImplicit false

namespace BoundFields

/-- Two to a power. -/
def twoTo (n : Nat) : Nat := Nat.pow 2 n

/-- Ten to a power. -/
def tenTo (n : Nat) : Nat := Nat.pow 10 n

theorem twoTo_pos (n : Nat) : 0 < twoTo n := Nat.pow_pos (by decide)

end BoundFields
