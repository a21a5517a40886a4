import BoundFields.Number.Double

/-!
# Rounding to double precision

`Double.ofRatio` is the double nearest to a quotient of two natural numbers, a tie going to the
even significand; `Double.ofDecimal` does the same for a natural number times a power of ten.
-/

set_option autoImplicit false

namespace BoundFields

/-- `num / den` to the nearest natural number, a half going to the even neighbour. -/
def roundHalfEven (num den : Nat) : Nat :=
  let low := num / den
  let twice := 2 * (num % den)
  if twice < den then low
  else if den < twice then low + 1
  else if low % 2 = 0 then low else low + 1

theorem le_roundHalfEven (num den : Nat) : num / den ≤ roundHalfEven num den := by
  unfold roundHalfEven
  simp only
  repeat' split
  all_goals omega

theorem roundHalfEven_le (num den : Nat) : roundHalfEven num den ≤ num / den + 1 := by
  unfold roundHalfEven
  simp only
  repeat' split
  all_goals omega

namespace Double

/-- The number of binary digits of `n`, none for zero. -/
def bitLength (n : Nat) : Nat := if n = 0 then 0 else n.log2 + 1

theorem lt_twoTo_bitLength (n : Nat) : n < twoTo (bitLength n) := by
  unfold bitLength
  split
  · next h => rw [h]; exact twoTo_pos 0
  · exact Nat.lt_log2_self

theorem twoTo_le_of_lt_bitLength {n k : Nat} (h : k < bitLength n) : twoTo k ≤ n := by
  unfold bitLength at h
  split at h
  · exact absurd h (Nat.not_lt_zero k)
  · next hn =>
    exact Nat.le_trans (Nat.pow_le_pow_right (by decide) (Nat.le_of_lt_succ h))
      (Nat.log2_self_le hn)

/-- The bits that a quotient has beyond those of a significand. -/
def excess (num den : Nat) : Nat := bitLength (num / den) - precision

/-- A quotient without its excess bits has at most the bits of a significand. -/
theorem div_excess_lt (num den : Nat) :
    num / (den * twoTo (excess num den)) < twoTo precision := by
  rw [← Nat.div_div_eq_div_mul]
  have hlt := lt_twoTo_bitLength (num / den)
  have hle : bitLength (num / den) ≤ excess num den + precision := by
    unfold excess; omega
  apply Nat.div_lt_of_lt_mul
  calc num / den < twoTo (bitLength (num / den)) := hlt
    _ ≤ twoTo (excess num den + precision) := Nat.pow_le_pow_right (by decide) hle
    _ = twoTo (excess num den) * twoTo precision := Nat.pow_add 2 _ _

/-- A quotient with excess bits has all the bits of a significand without them. -/
theorem le_div_excess {num den : Nat} (h : excess num den ≠ 0) :
    twoTo (precision - 1) ≤ num / (den * twoTo (excess num den)) := by
  rw [← Nat.div_div_eq_div_mul, Nat.le_div_iff_mul_le (twoTo_pos _)]
  have hbit : (precision - 1) + excess num den < bitLength (num / den) := by
    unfold excess precision at *; omega
  calc twoTo (precision - 1) * twoTo (excess num den)
      = twoTo ((precision - 1) + excess num den) := (Nat.pow_add 2 _ _).symm
    _ ≤ num / den := twoTo_le_of_lt_bitLength hbit

/-- The significand that is left of a quotient without its excess bits. -/
def roundedSignificand (num den : Nat) : Nat :=
  roundHalfEven num (den * twoTo (excess num den))

theorem canonical_rounded {num den : Nat} (h : roundedSignificand num den ≠ twoTo precision)
    (he : excess num den ≤ topExponent) :
    Canonical (roundedSignificand num den) (excess num den) where
  significand_lt := by
    have hle : roundedSignificand num den ≤ num / (den * twoTo (excess num den)) + 1 :=
      roundHalfEven_le _ _
    have hlt := div_excess_lt num den
    omega
  exponent_le := he
  full := fun h => Nat.le_trans (le_div_excess h) (le_roundHalfEven _ _)

theorem canonical_carried {num den : Nat} (he : excess num den + 1 ≤ topExponent) :
    Canonical (twoTo (precision - 1)) (excess num den + 1) where
  significand_lt := Nat.pow_lt_pow_right (by decide) (by decide)
  exponent_le := he
  full := fun _ => Nat.le_refl _

/-- The double nearest to `num / den`, with the given sign. -/
def ofRatio (negative : Bool) (num den : Nat) : Double :=
  let scaled := num * twoTo scale
  if h : roundedSignificand scaled den = twoTo precision then
    -- Rounding up carried into one more bit than a significand has.
    if he : excess scaled den + 1 ≤ topExponent then
      .finite negative _ _ (canonical_carried he)
    else .infinite negative
  else if he : excess scaled den ≤ topExponent then
    .finite negative _ _ (canonical_rounded h he)
  else .infinite negative

/-- The double nearest to an integer. -/
def ofInt (n : Int) : Double := ofRatio (n < 0) n.natAbs 1

/-- The double nearest to `digits · 10 ^ exponent`, with the given sign. Powers of ten that are
out of reach of every double are not computed. -/
def ofDecimal (negative : Bool) (digits : Nat) (exponent : Int) : Double :=
  if digits = 0 then signedZero negative
  else
    let point : Int := exponent + ((Nat.toDigits 10 digits).length : Int)
    if 400 < point then .infinite negative
    else if point < -400 then signedZero negative
    else if 0 ≤ exponent then ofRatio negative (digits * tenTo exponent.toNat) 1
    else ofRatio negative digits (tenTo (-exponent).toNat)

end Double

end BoundFields
