import BoundFields.Yaml.Value
import BoundFields.Number.Reader

/-!
# What an unquoted scalar stands for

The text of an unquoted scalar is null, a truth value, an integer (also in hexadecimal, octal or
binary), a number with a fraction part, or else itself. Digits behind a leading zero are text.
-/

set_option autoImplicit false

namespace BoundFields.Yaml

/-- The meaning of an unquoted scalar. -/
inductive Plain where
  | null
  | bool (b : Bool)
  | number (n : Number)
  /-- An integer beyond 64 bits, which has no value. -/
  | hugeInteger
  | text
deriving DecidableEq, Repr

namespace Plain

/-- Whether a bare text means null. -/
def isNullWord (cs : List Char) : Bool :=
  ["null", "Null", "NULL", "~"].any (·.toList = cs)

/-- The truth value that a bare text means. -/
def boolOfWord? (cs : List Char) : Option Bool :=
  if ["true", "True", "TRUE"].any (·.toList = cs) then some true
  else if ["false", "False", "FALSE"].any (·.toList = cs) then some false
  else none

/-- Digits behind a leading zero, with or without a sign. -/
def isZeroLed (cs : List Char) : Bool :=
  let digits := match cs with
    | '-' :: rest | '+' :: rest => rest
    | cs => cs
  match digits with
  | '0' :: d :: rest => (d :: rest).all Char.isDigit
  | _ => false

/-- The value of a digit, capital or small letters standing for ten and more. -/
def digitIn? (radix : Nat) (c : Char) : Option Nat :=
  let value :=
    if c.isDigit then some (digitValue c)
    else if 'a' ≤ c ∧ c ≤ 'f' then some (c.toNat - 'a'.toNat + 10)
    else if 'A' ≤ c ∧ c ≤ 'F' then some (c.toNat - 'A'.toNat + 10)
    else none
  value.filter (· < radix)

/-- The number with these digits, at least one. -/
def natIn? (radix : Nat) (cs : List Char) : Option Nat :=
  if cs.isEmpty then none
  else cs.foldlM (fun n c => (digitIn? radix c).map (radix * n + ·)) 0

/-- The radix that a text starts with, and the text behind it. -/
def radixOf? : List Char → Option (Nat × List Char)
  | '0' :: 'x' :: rest => some (16, rest)
  | '0' :: 'o' :: rest => some (8, rest)
  | '0' :: 'b' :: rest => some (2, rest)
  | _ => none

/-- An integer without a sign. -/
def unsigned? (cs : List Char) : Option Nat :=
  ((radixOf? cs).bind fun (radix, digits) => natIn? radix digits).or (natIn? 10 cs)

/-- The integer that a text stands for, of any size. -/
def integer? (cs : List Char) : Option Int :=
  if isZeroLed cs then none
  else match cs with
    | '-' :: rest => (unsigned? rest).map fun n => -(n : Int)
    | '+' :: rest => (unsigned? rest).map fun n => (n : Int)
    | cs => (unsigned? cs).map fun n => (n : Int)

/-- The number with a fraction part that a text stands for. -/
def float? (cs : List Char) : Option Double :=
  let unsigned := match cs with
    | '+' :: rest => rest
    | cs => cs
  let isSigned : List Char → Bool
    | '+' :: _ | '-' :: _ => true
    | _ => false
  if unsigned ≠ cs && isSigned unsigned then none
  else if [".inf", ".Inf", ".INF"].any (·.toList = unsigned) then some (.infinite false)
  else if ["-.inf", "-.Inf", "-.INF"].any (·.toList = cs) then some (.infinite true)
  else if [".nan", ".NaN", ".NAN"].any (·.toList = cs) then some .nan
  else Double.readFinite? unsigned

/-- The meaning of a text as an integer: beyond 128 bits it has none. -/
def ofInteger? (n : Int) : Option Plain :=
  if -twoTo 63 ≤ n ∧ n < twoTo 64 then some (.number (.integer n))
  else if -twoTo 127 ≤ n ∧ n < twoTo 128 then some .hugeInteger
  else none

/-- The meaning of the text of an unquoted scalar. -/
def ofText (cs : List Char) : Plain :=
  if cs.isEmpty || isNullWord cs then .null
  else match boolOfWord? cs with
    | some b => .bool b
    | none =>
      match (integer? cs).bind ofInteger? with
      | some plain => plain
      | none =>
        if isZeroLed cs then .text
        else match float? cs with
          | some d => .number (.float d)
          | none => .text

end Plain

end BoundFields.Yaml
