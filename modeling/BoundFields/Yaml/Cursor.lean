import BoundFields.Yaml.Style
import BoundFields.Yaml.Error

/-!
# Places in a text

What is left of a text, with the place reached: bytes, lines, and characters of the line. A carriage
return with a line feed is one line break but two bytes.
-/

set_option autoImplicit false

namespace BoundFields.Yaml

/-- A space or a tab. -/
def isSpaceOrTab (c : Char) : Bool := c = ' ' || c = '\t'

/-- A character that a text may hold. -/
def isAllowed (c : Char) : Bool :=
  let n := c.toNat
  n = 0x09 || n = 0x0A || n = 0x0D || (0x20 ≤ n && n ≤ 0x7E) || n = 0x85
    || (0xA0 ≤ n && n ≤ 0xD7FF) || (0xE000 ≤ n && n ≤ 0xFFFD) || 0x10000 ≤ n

/-- A place in a text and the text from there on. -/
structure Cursor where
  rest : List Char
  /-- How many bytes come before the place. -/
  index : Nat := 0
  line : Nat := 0
  column : Nat := 0
deriving Repr, DecidableEq

namespace Cursor

/-- The character at the place. -/
def peek? (c : Cursor) : Option Char := c.rest.head?

/-- Whether the character `n` places on satisfies `p`; `atEnd` is the answer behind the text. -/
def sees (c : Cursor) (n : Nat) (p : Char → Bool) (atEnd : Bool) : Bool :=
  match c.rest[n]? with
  | some ch => p ch
  | none => atEnd

/-- Whether this character stands at the place. -/
def isAt (c : Cursor) (ch : Char) : Bool := c.sees 0 (· = ch) false

/-- Whether the character `n` places on, or the end of the text, separates tokens. -/
def isBlankAt (c : Cursor) (n : Nat) : Bool := c.sees n (fun d => isSpaceOrTab d || isBreak d) true

/-- Whether a line ends here. -/
def isLineEnd (c : Cursor) : Bool := c.sees 0 isBreak true

/-- How many bytes characters take. -/
def byteCount (cs : List Char) : Nat := cs.foldl (fun n ch => n + ch.utf8Size) 0

/-- The place `n` characters further on the line. -/
def skip (c : Cursor) (n : Nat) : Cursor :=
  { c with
    rest := c.rest.drop n
    index := c.index + byteCount (c.rest.take n)
    column := c.column + n }

/-- The place behind all characters from here on that satisfy `p`, which are no line breaks. -/
def skipWhile (c : Cursor) (p : Char → Bool) : Cursor := c.skip (c.rest.takeWhile p).length

/-- The characters from here on that satisfy `p`. -/
def takeWhile (c : Cursor) (p : Char → Bool) : List Char := c.rest.takeWhile p

/-- The place behind a line break, and the break as it counts in a scalar. -/
def nextLine (c : Cursor) : List Char × Cursor :=
  match c.rest with
  | '\r' :: '\n' :: rest => (['\n'], ⟨rest, c.index + 2, c.line + 1, 0⟩)
  | ch :: rest =>
      if isBreak ch then
        (if ch = '\u2028' || ch = '\u2029' then [ch] else ['\n'],
          ⟨rest, c.index + ch.utf8Size, c.line + 1, 0⟩)
      else ([], c)
  | [] => ([], c)

/-- Whether a line of three hyphens or three points starts here. -/
def isDocumentMark (c : Cursor) : Bool :=
  c.column == 0 && (c.rest.take 3 = ['-', '-', '-'] || c.rest.take 3 = ['.', '.', '.'])
    && c.isBlankAt 3

end Cursor

end BoundFields.Yaml
