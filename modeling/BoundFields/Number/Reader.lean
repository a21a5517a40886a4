import BoundFields.Number.Rounding

/-!
# Reading numbers

Decimal text with an optional sign, fraction and exponent is read as the nearest double; texts for
infinity and for "not a number" are accepted in any case. An index is a run of digits behind an
optional plus sign.
-/

set_option autoImplicit false

namespace BoundFields

/-- The value of an ASCII digit. -/
def digitValue (c : Char) : Nat := c.toNat - '0'.toNat

/-- The natural number that a run of decimal digits stands for. -/
def valueOfDigits (cs : List Char) : Nat := cs.foldl (fun n c => 10 * n + digitValue c) 0

/-- The digits at the start of a text, and the text behind them. -/
def spanDigits (cs : List Char) : List Char × List Char :=
  (cs.takeWhile Char.isDigit, cs.dropWhile Char.isDigit)

/-- A minus sign (`true`) or a plus sign or none (`false`), and the text behind it. -/
def spanSign : List Char → Bool × List Char
  | '-' :: rest => (true, rest)
  | '+' :: rest => (false, rest)
  | rest => (false, rest)

/-- An ASCII capital as the small letter, any other character as itself. -/
def foldCase (cs : List Char) : List Char := cs.map Char.toLower

namespace Double

/-- The exponent part of a number: nothing, or `e` with at least one digit. -/
def readExponent? : List Char → Option Int
  | [] => some 0
  | c :: rest =>
      if c = 'e' || c = 'E' then
        let (negative, digits) := spanSign rest
        if digits.isEmpty || !digits.all Char.isDigit then none
        else
          let n : Int := valueOfDigits digits
          some (if negative then -n else n)
      else none

/-- The number without its sign: digits, at most one point, at least one digit around it. -/
def readUnsigned? (negative : Bool) (cs : List Char) : Option Double :=
  let (whole, rest) := spanDigits cs
  let (fraction, rest) := match rest with
    | '.' :: rest => spanDigits rest
    | rest => ([], rest)
  if whole.isEmpty && fraction.isEmpty then none
  else (readExponent? rest).map fun exponent =>
    ofDecimal negative (valueOfDigits (whole ++ fraction)) (exponent - fraction.length)

/-- The number that a text stands for. -/
def read? (cs : List Char) : Option Double :=
  let (negative, rest) := spanSign cs
  match String.ofList (foldCase rest) with
  | "inf" | "infinity" => some (.infinite negative)
  | "nan" => some .nan
  | _ => readUnsigned? negative rest

/-- The finite number that a text stands for. -/
def readFinite? (cs : List Char) : Option Double := (read? cs).filter isFinite

end Double

/-- One more than the largest index a text can stand for. -/
def indexLimit : Nat := twoTo 64

/-- The index that a text stands for. -/
def readIndex? (cs : List Char) : Option Nat :=
  let digits := match cs with
    | '+' :: rest => rest
    | cs => cs
  if digits.isEmpty || !digits.all Char.isDigit then none
  else
    let n := valueOfDigits digits
    if n < indexLimit then some n else none

end BoundFields
