import BoundFields.Number.Double

/-!
# Shortest decimals

The decimal with the fewest digits that rounds to a given double, and among those the nearest; a
tie rule chooses between two that are equally near. For each number of digits from 1 to 17 the two
neighbours of the value on that decimal grid are tested in exact arithmetic; if a point of a grid
lies in the rounding interval of the value, so does one of its two neighbours.
-/

set_option autoImplicit false

namespace BoundFields

/-- The choice between two neighbouring multiples of a unit that are equally near to a value: the
even one, or the one farther from zero. -/
inductive Tie where
  | toEven
  | awayFromZero
deriving DecidableEq, Repr

/-- The choice between `n` and `n + 1`. -/
def Tie.choose (tie : Tie) (n : Nat) : Nat :=
  match tie with
  | .toEven => if n % 2 = 0 then n else n + 1
  | .awayFromZero => n + 1

/-- The decimal `digits · 10 ^ exponent`, whose digits do not end in zero unless it is zero. -/
structure Decimal where
  digits : Nat
  exponent : Int
deriving DecidableEq, Repr

namespace Decimal

/-- How many factors of ten to move from the digits to the exponent: at most `fuel`. -/
def strip : Nat → Nat → Int → Decimal
  | 0, n, e => ⟨n, e⟩
  | fuel + 1, n, e => if n ≠ 0 ∧ n % 10 = 0 then strip fuel (n / 10) (e + 1) else ⟨n, e⟩

/-- How often `num` has to be multiplied by ten to reach `den`, at most `fuel` times. -/
def tensBelow : Nat → Nat → Nat → Nat
  | 0, _, _ => 0
  | fuel + 1, num, den => if den ≤ num then 0 else tensBelow fuel (num * 10) den + 1

/-- The exponent of the leading decimal digit of the positive quotient `num / den`. -/
def leadingExponent (num den : Nat) : Int :=
  if den ≤ num then ((Nat.toDigits 10 (num / den)).length : Int) - 1
  else -(tensBelow 400 num den : Int)

end Decimal

namespace Double

/-- The numbers that round to a positive double: the quotients by `den` of the numbers from `low`
to `high`, the ends included iff `closed`, with the double itself at `middle`. -/
structure RoundingInterval where
  low : Nat
  middle : Nat
  high : Nat
  den : Nat
  closed : Bool

/-- The interval reaches half way to either neighbour; below a power of two the neighbours lie
twice as close. -/
def roundingInterval (m e : Nat) : RoundingInterval :=
  let unit := twoTo e
  let below := if m = twoTo (precision - 1) ∧ 0 < e then 1 else 2
  { low := (4 * m - below) * unit
    middle := 4 * m * unit
    high := (4 * m + 2) * unit
    den := 4 * twoTo scale
    closed := m % 2 = 0 }

namespace RoundingInterval

/-- Whether the quotient `num / den` lies in the interval. -/
def contains (r : RoundingInterval) (num den : Nat) : Bool :=
  let x := num * r.den
  if r.closed then r.low * den ≤ x && x ≤ r.high * den
  else r.low * den < x && x < r.high * den

/-- The point in the interval nearest to its middle, on the grid of the multiples of
`10 ^ exponent`; of two equally near ones the one that the tie rule chooses. -/
def nearest? (tie : Tie) (r : RoundingInterval) (exponent : Int) : Option Decimal :=
  let up := tenTo exponent.toNat
  let down := tenTo (-exponent).toNat
  let n := r.middle * down / (r.den * up)
  let low := r.contains (n * up) down
  let high := r.contains ((n + 1) * up) down
  let choice :=
    if low && high then
      -- Both neighbours lie inside.
      let twice := 2 * r.middle * down
      let sum := (2 * n + 1) * up * r.den
      if twice < sum then some n
      else if sum < twice then some (n + 1)
      else some (tie.choose n)
    else if low then some n
    else if high then some (n + 1)
    else none
  choice.map fun d => Decimal.strip 20 d exponent

/-- The first hit on the grids from `exponent` downwards, at most `fuel` of them. -/
def search (tie : Tie) (r : RoundingInterval) : Nat → Int → Option Decimal
  | 0, _ => none
  | fuel + 1, exponent => (r.nearest? tie exponent).or (search tie r fuel (exponent - 1))

end RoundingInterval

/-- The shortest decimal that rounds to the positive double with significand `m` and exponent
`e`; zero for zero. Seventeen digits always suffice. -/
def shortest (tie : Tie) (m e : Nat) : Decimal :=
  if m = 0 then ⟨0, 0⟩
  else
    let r := roundingInterval m e
    (r.search tie 17 (Decimal.leadingExponent r.middle r.den)).getD ⟨0, 0⟩

end Double

end BoundFields
