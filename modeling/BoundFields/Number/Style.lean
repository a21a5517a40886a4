import BoundFields.Number.Shortest

/-!
# How numbers are written

Every number is written with the digits of its shortest decimal. A `NumberStyle` says which of two
equally near decimals is taken and lays its digits out; there is one style for metadata, one for
structured output and one for messages.
-/

set_option autoImplicit false

namespace BoundFields

/-- The digits and the layout of a number. The point position counts the digits before the decimal
point. -/
structure NumberStyle where
  /-- The choice between two equally near shortest decimals. -/
  tie : Tie
  /-- The point positions at which no exponent is written. -/
  positional : Int → Bool
  /-- Whether a whole number written without an exponent ends in `.0`. -/
  pointZero : Bool
  /-- Whether a positive exponent carries a sign. -/
  exponentPlus : Bool
  nan : String
  infinity : String

namespace NumberStyle

/-- Numbers in metadata: positional from `0.00001` to below `1e16`. -/
def metadata : NumberStyle :=
  { tie := .toEven
    positional := fun point => -5 < point && point ≤ 16
    pointZero := true
    exponentPlus := false
    nan := ".nan"
    infinity := ".inf" }

/-- Numbers in structured output, where a positive exponent carries a sign. -/
def structured : NumberStyle :=
  { metadata with exponentPlus := true, nan := "null", infinity := "null" }

/-- Numbers in messages, which never have an exponent; here a tie goes away from zero. -/
def message : NumberStyle :=
  { tie := .awayFromZero
    positional := fun _ => true
    pointZero := false
    exponentPlus := false
    nan := "NaN"
    infinity := "inf" }

/-- The digits laid out around the decimal point. -/
def layout (style : NumberStyle) (d : Decimal) : String :=
  let digits := Nat.toDigits 10 d.digits
  let count : Int := digits.length
  let point := if d.digits = 0 then 1 else count + d.exponent
  let zeros (n : Int) : List Char := List.replicate n.toNat '0'
  String.ofList <|
    if style.positional point then
      if count ≤ point then
        digits ++ zeros (point - count) ++ (if style.pointZero then ['.', '0'] else [])
      else if 0 < point then
        digits.take point.toNat ++ '.' :: digits.drop point.toNat
      else '0' :: '.' :: (zeros (-point) ++ digits)
    else
      let exponent := point - 1
      let sign := if exponent < 0 then ['-'] else if style.exponentPlus then ['+'] else []
      digits.take 1 ++ (if count = 1 then [] else '.' :: digits.drop 1)
        ++ 'e' :: (sign ++ Nat.toDigits 10 exponent.natAbs)

end NumberStyle

/-- The text of a number in a given notation. -/
def Double.write (style : NumberStyle) : Double → String
  | .nan => style.nan
  | .infinite negative => if negative then "-" ++ style.infinity else style.infinity
  | .finite negative m e _ =>
      let text := style.layout (Double.shortest style.tie m e)
      if negative then "-" ++ text else text

end BoundFields
