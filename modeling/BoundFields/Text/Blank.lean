/-!
# Blank characters

The characters with the Unicode property `White_Space`, and the three ways of cutting blanks off
a text. Trimming is stated on lists of characters; the versions on strings go through them.
-/

set_option autoImplicit false

namespace BoundFields.Text

/-- The property `White_Space`: 25 code points, of which six are ASCII. -/
def isBlank (c : Char) : Bool :=
  let n := c.toNat
  (9 ≤ n && n ≤ 13) || n == 0x20 || n == 0x85 || n == 0xA0 || n == 0x1680
    || (0x2000 ≤ n && n ≤ 0x200A) || n == 0x2028 || n == 0x2029 || n == 0x202F
    || n == 0x205F || n == 0x3000

/-- The text without its leading blanks. -/
def trimStart (cs : List Char) : List Char := cs.dropWhile isBlank

/-- The text without its trailing blanks. -/
def trimEnd (cs : List Char) : List Char := (cs.reverse.dropWhile isBlank).reverse

/-- The text without the blanks at either end. -/
def trim (cs : List Char) : List Char := trimEnd (trimStart cs)

/-- A text of blanks only, the empty one included. -/
def isBlankText (cs : List Char) : Bool := cs.all isBlank

/-- The string without the blanks at either end. -/
def trimmed (s : String) : String := String.ofList (trim s.toList)

/-- A string of blanks only, the empty one included. -/
def isBlankString (s : String) : Bool := isBlankText s.toList

/-- A text that starts with no blank is kept by `trimStart`. -/
theorem trimStart_cons_of_not_blank {c : Char} {cs : List Char} (h : isBlank c = false) :
    trimStart (c :: cs) = c :: cs := by
  simp [trimStart, h]

end BoundFields.Text
