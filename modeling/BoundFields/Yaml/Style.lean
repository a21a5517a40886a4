import BoundFields.Yaml.Scalar

/-!
# How scalars are written

A text is written bare if it then reads as that text, else between single quotes, else between
double quotes with escapes; a text with line feeds is written as an indented block. `Style.select`
decides from what the text holds.
-/

set_option autoImplicit false

namespace BoundFields.Yaml

/-- A character that ends a line. -/
def isBreak (c : Char) : Bool :=
  c = '\n' || c = '\r' || c = '\u0085' || c = '\u2028' || c = '\u2029'

/-- A character after which a mark counts as standing alone. -/
def isGap (c : Char) : Bool := c = ' ' || c = '\t' || isBreak c || c = '\u0000'

/-- A character that is written as it is. -/
def isPrintable (c : Char) : Bool :=
  let n := c.toNat
  n = 0x0A || (0x20 ≤ n && n ≤ 0x7E) || (0xA0 ≤ n && n ≤ 0xD7FF)
    || (0xE000 ≤ n && n ≤ 0xFFFD && n ≠ 0xFEFF) || 0x10000 ≤ n

/-- A way of writing a scalar. -/
inductive Style where
  | plain
  | singleQuoted
  | doubleQuoted
  | literal
deriving DecidableEq, Repr

/-- What matters of a text for the way it is written. -/
structure Traits where
  /-- A mark that means something else where the text stands. -/
  marks : Bool := false
  breaks : Bool := false
  unprintable : Bool := false
  leadingSpace : Bool := false
  leadingBreak : Bool := false
  trailingSpace : Bool := false
  trailingBreak : Bool := false
  spaceBehindBreak : Bool := false
  breakBehindSpace : Bool := false
deriving DecidableEq, Repr

namespace Traits

/-- Marks that mean something at the start of a text. -/
def isLeadingMark (c : Char) : Bool :=
  "#,[]{}&*!|>'\"%@`".toList.contains c

/-- Whether some character has a meaning of its own, `prev` being the one before. -/
def marksWithin (prev : Char) : List Char → Bool
  | [] => false
  | c :: cs =>
      (c = ':' && (match cs with | [] => true | d :: _ => isGap d))
        || (c = '#' && isGap prev) || marksWithin c cs

/-- Whether the text starts with a mark, or has one within. -/
def hasMarks : List Char → Bool
  | [] => false
  | '-' :: '-' :: '-' :: _ | '.' :: '.' :: '.' :: _ => true
  | c :: cs =>
      isLeadingMark c
        || ((c = '?' || c = ':' || c = '-') && (match cs with | [] => true | d :: _ => isGap d))
        || marksWithin c cs

/-- Whether a character with `p` is followed at once by one with `q`. -/
def adjacent (p q : Char → Bool) : List Char → Bool
  | c :: d :: cs => (p c && q d) || adjacent p q (d :: cs)
  | _ => false

/-- The traits of a text. -/
def ofText (cs : List Char) : Traits where
  marks := hasMarks cs
  breaks := cs.any isBreak
  unprintable := cs.any (!isPrintable ·)
  leadingSpace := cs.head? = some ' '
  leadingBreak := cs.head?.any isBreak
  trailingSpace := cs.getLast? = some ' '
  trailingBreak := cs.getLast?.any isBreak
  spaceBehindBreak := adjacent isBreak (· = ' ') cs
  breakBehindSpace := adjacent (· = ' ') isBreak cs

/-- Whether such a text can be written bare. -/
def allowsPlain (t : Traits) : Bool :=
  !(t.marks || t.breaks || t.unprintable || t.leadingSpace || t.leadingBreak || t.trailingSpace
    || t.trailingBreak || t.spaceBehindBreak || t.breakBehindSpace)

/-- Whether such a text can be written between single quotes. -/
def allowsSingleQuoted (t : Traits) : Bool :=
  !(t.unprintable || t.spaceBehindBreak || t.breakBehindSpace)

/-- Whether such a text can be written as a block of lines. -/
def allowsBlock (t : Traits) : Bool :=
  !(t.unprintable || t.trailingSpace || t.breakBehindSpace)

end Traits

namespace Style

/-- The style that a text asks for by its meaning alone. -/
def wanted (cs : List Char) : Style :=
  if cs.contains '\n' then .literal
  else match Plain.ofText cs with
    | .text => if Plain.isZeroLed cs then .singleQuoted else .plain
    | _ => .singleQuoted

/-- The style of a scalar that asks for `style`; as a key that starts its entry it has to keep to
one line. -/
def select (asKey : Bool) (style : Style) (cs : List Char) : Style :=
  let traits := Traits.ofText cs
  let style := if asKey && traits.breaks then .doubleQuoted else style
  let style := if style = .plain && !traits.allowsPlain then .singleQuoted else style
  let style :=
    if style = .singleQuoted && !traits.allowsSingleQuoted && !cs.isEmpty then .doubleQuoted
    else style
  if style = .literal && (asKey || cs.isEmpty || !traits.allowsBlock) then .doubleQuoted else style

end Style

end BoundFields.Yaml
