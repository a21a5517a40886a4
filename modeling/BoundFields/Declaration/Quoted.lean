import BoundFields.Text.Blank

/-!
# Values as written

The value of an argument is written bare or between double quotes. `quoteValue` picks the quotes
wherever the bare text could be read as something else; `quotedText?` undoes them.
-/

set_option autoImplicit false

namespace BoundFields

/-- The characters that a bare value does not hold when it is printed. -/
def isDelimiter (c : Char) : Bool :=
  c = '(' || c = ')' || c = ',' || c = ':' || c = '[' || c = ']' || c = '"' || c = '\\'

/-- Backslashes and quotes, each behind a backslash; everything else as it is. -/
def escapeQuoted : List Char → List Char
  | [] => []
  | c :: cs => if c = '"' || c = '\\' then '\\' :: c :: escapeQuoted cs else c :: escapeQuoted cs

/-- Whether a value has to be quoted: it is empty, has blanks at an end, or holds a delimiter. -/
def needsQuotes (raw : List Char) : Bool :=
  raw.isEmpty || decide (Text.trim raw ≠ raw) || raw.any isDelimiter

/-- A value as it is printed. -/
def quoteChars (raw : List Char) : List Char :=
  if needsQuotes raw then '"' :: (escapeQuoted raw ++ ['"']) else raw

/-- A value as it is printed. -/
def quoteValue (raw : String) : String := String.ofList (quoteChars raw.toList)

/-- The text up to the closing quote and what follows the quote. A backslash stands for itself
unless a quote or a backslash follows. -/
def quotedText? : List Char → Option (List Char × List Char)
  | [] => none
  | '"' :: cs => some ([], cs)
  | '\\' :: [] => none
  | '\\' :: c :: cs =>
      (quotedText? cs).map fun (text, rest) =>
        (if c = '"' || c = '\\' then c :: text else '\\' :: c :: text, rest)
  | c :: cs => (quotedText? cs).map fun (text, rest) => (c :: text, rest)

theorem quotedText?_cons {c : Char} (hquote : c ≠ '"') (hbackslash : c ≠ '\\') (cs : List Char) :
    quotedText? (c :: cs) = (quotedText? cs).map fun (text, rest) => (c :: text, rest) := by
  rw [quotedText?]
  · exact hquote
  · exact fun h _ => hbackslash h
  · exact fun _ _ h _ => hbackslash h

theorem quotedText?_escapeQuoted (raw rest : List Char) :
    quotedText? (escapeQuoted raw ++ '"' :: rest) = some (raw, rest) := by
  induction raw with
  | nil => simp [escapeQuoted, quotedText?]
  | cons c cs ih =>
    by_cases hq : c = '"'
    · subst hq; simp [escapeQuoted, quotedText?, ih]
    · by_cases hb : c = '\\'
      · subst hb; simp [escapeQuoted, quotedText?, ih]
      · simp [escapeQuoted, quotedText?, hq, hb, ih]

/-- The text up to the first parenthesis that closes more than was opened, `depth` being open at
the start, and the text from that parenthesis on. -/
def bareText? : Nat → List Char → Option (List Char × List Char)
  | _, [] => none
  | 0, ')' :: cs => some ([], ')' :: cs)
  | depth + 1, ')' :: cs => (bareText? depth cs).map fun (text, rest) => (')' :: text, rest)
  | depth, '(' :: cs => (bareText? (depth + 1) cs).map fun (text, rest) => ('(' :: text, rest)
  | depth, c :: cs => (bareText? depth cs).map fun (text, rest) => (c :: text, rest)

end BoundFields
