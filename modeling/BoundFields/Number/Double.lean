import BoundFields.Number.Power

/-!
# Double-precision numbers

The numbers of the 64-bit binary floating-point format, held by their meaning: a finite one is a
significand times a power of two times the smallest positive number. Comparisons are made exactly
on whole multiples of that number (`Double.units`), so every fact about them is one about `Int`.
-/

set_option autoImplicit false

namespace BoundFields

namespace Double

/-- The number of bits of a significand. -/
def precision : Nat := 53

/-- The smallest positive number is `2 ^ (-scale)`. -/
def scale : Nat := 1074

/-- The exponent of the largest finite numbers. -/
def topExponent : Nat := 2045

/-- The one way to hold a finite number: all bits of the significand are in use unless the
exponent is 0. -/
structure Canonical (significand exponent : Nat) : Prop where
  significand_lt : significand < twoTo precision
  exponent_le : exponent ≤ topExponent
  full : exponent ≠ 0 → twoTo (precision - 1) ≤ significand

end Double

/-- A double-precision number. The finite one with significand `m` and exponent `e` is
`± m · 2 ^ (e - 1074)`; zero and the other numbers below `2 ^ (-1022)` have exponent 0, and the
rest have a significand of 53 bits. -/
inductive Double where
  | nan
  | infinite (negative : Bool)
  | finite (negative : Bool) (significand exponent : Nat)
      (canonical : Double.Canonical significand exponent)
deriving DecidableEq, Repr, Inhabited

namespace Double

/-- Zero with a sign. -/
def signedZero (negative : Bool) : Double :=
  .finite negative 0 0 ⟨twoTo_pos _, Nat.zero_le _, fun h => absurd rfl h⟩

/-- Zero without a sign. -/
def zero : Double := signedZero false

/-- Whether a double is no number. -/
def isNaN : Double → Bool
  | .nan => true
  | _ => false

/-- Whether a double is a number that is not infinite. -/
def isFinite : Double → Bool
  | .finite .. => true
  | _ => false

/-- The finite number `± m · 2 ^ e`, as a multiple of the smallest positive one. -/
def units (negative : Bool) (m e : Nat) : Int :=
  if negative then -((m * twoTo e : Nat) : Int) else ((m * twoTo e : Nat) : Int)

/-- `x ≤ y`, false as soon as one of them is not a number. -/
def le : Double → Double → Bool
  | .nan, _ | _, .nan => false
  | .infinite true, _ | _, .infinite false => true
  | .infinite false, _ | _, .infinite true => false
  | .finite s m e _, .finite t n f _ => units s m e ≤ units t n f

/-- `x < y`, false as soon as one of them is not a number. -/
def lt (x y : Double) : Bool := le x y && !le y x

/-- `x = y` as numbers: the two zeros are equal, and no NaN equals anything. -/
def same (x y : Double) : Bool := le x y && le y x

/-- `x` moved into the range from `low` to `high`; what is not a number stays so. -/
def clamp (x low high : Double) : Double :=
  let raised := if lt x low then low else x
  if lt high raised then high else raised

/-- A finite number without a fractional part, as an integer. -/
def toInt? : Double → Option Int
  | .finite s m e _ =>
      let u := units s m e
      if u % twoTo scale = 0 then some (u / twoTo scale) else none
  | _ => none

end Double

end BoundFields
