import BoundFields.Text.Pieces
import BoundFields.Number.Style
import BoundFields.Yaml.Error
import BoundFields.Yaml.Style
import BoundFields.Yaml.Writable

/-!
# Writing metadata

A value is written as a block of lines: entries of a mapping one below the other, items of a
sequence behind hyphens, each level two columns further in, except that a sequence under a key
stays in the column of the key. `Value.write` fails only where `Value.check` finds a fault.
-/

set_option autoImplicit false

namespace BoundFields.Yaml

/-- The text written so far, last character first, with what the next mark depends on. -/
structure Sheet where
  written : List Char := []
  column : Nat := 0
  /-- A mark may follow without a space. -/
  spaced : Bool := true
  /-- The line holds nothing but indentation and marks that open a level. -/
  fresh : Bool := true
deriving Repr, DecidableEq

namespace Sheet

/-- The sheet with one more character in the line. -/
def put (s : Sheet) (c : Char) : Sheet :=
  { s with written := c :: s.written, column := s.column + 1 }

/-- The sheet with some more characters in the line. -/
def putAll (s : Sheet) (cs : List Char) : Sheet := cs.foldl put s

/-- A character that ends the line. -/
def putBreak (s : Sheet) (c : Char) : Sheet := { s with written := c :: s.written, column := 0 }

/-- The start of a line with `indent` columns of indentation. -/
def indentTo (s : Sheet) (indent : Nat) : Sheet :=
  let s :=
    if !s.fresh || indent < s.column || (s.column == indent && !s.spaced) then s.putBreak '\n'
    else s
  { s.putAll (List.replicate (indent - s.column) ' ') with spaced := true, fresh := true }

/-- A mark, behind a space if it needs one. -/
def mark (s : Sheet) (cs : List Char) (needsSpace opensLevel : Bool) : Sheet :=
  let s := if needsSpace && !s.spaced then s.put ' ' else s
  { s.putAll cs with spaced := false, fresh := s.fresh && opensLevel }

/-- A space, unless a mark may follow without one. -/
def space (s : Sheet) : Sheet := if s.spaced then s else s.put ' '

/-- The sheet behind a part of a scalar or a tag. -/
def closed (s : Sheet) : Sheet := { s with spaced := false, fresh := false }

/-- The escape of a character in double quotes. -/
def escape (c : Char) : List Char :=
  let hex (width : Nat) : List Char :=
    let digits := (Nat.toDigits 16 c.toNat).map Char.toUpper
    List.replicate (width - digits.length) '0' ++ digits
  match c with
  | '\u0000' => ['0']
  | '\u0007' => ['a']
  | '\u0008' => ['b']
  | '\t' => ['t']
  | '\n' => ['n']
  | '\u000B' => ['v']
  | '\u000C' => ['f']
  | '\r' => ['r']
  | '\u001B' => ['e']
  | '"' => ['"']
  | '\\' => ['\\']
  | '\u0085' => ['N']
  | '\u00A0' => ['_']
  | '\u2028' => ['L']
  | '\u2029' => ['P']
  | c =>
      if c.toNat ≤ 0xFF then 'x' :: hex 2
      else if c.toNat ≤ 0xFFFF then 'u' :: hex 4
      else 'U' :: hex 8

/-- A text between double quotes, with escapes for what cannot stand there. -/
def doubleQuoted (s : Sheet) (cs : List Char) : Sheet :=
  let s := s.mark ['"'] true false
  let s := cs.foldl (fun s c =>
    if !isPrintable c || isBreak c || c = '"' || c = '\\' then s.putAll ('\\' :: escape c)
    else s.put c) s
  (s.mark ['"'] false false).closed

/-- The characters of a scalar that may hold breaks: a line behind a break is indented. -/
def putLines (double : Bool) (indent : Nat) (s : Sheet) (afterBreak : Bool) :
    List Char → Sheet × Bool
  | [] => (s, afterBreak)
  | c :: cs =>
      if isBreak c then
        -- Within quotes the first of several line feeds would fold away, so it is doubled.
        let s := if double && !afterBreak && c = '\n' then s.putBreak '\n' else s
        putLines double indent { s.putBreak c with fresh := true } true cs
      else
        let s := if afterBreak then s.indentTo indent else s
        let s := if double && c = '\'' then s.put '\'' else s
        putLines double indent { s.put c with fresh := false } false cs

/-- A text between single quotes, its lines indented. -/
def singleQuoted (s : Sheet) (indent : Nat) (cs : List Char) : Sheet :=
  let (s, afterBreak) := putLines true indent (s.mark ['\''] true false) false cs
  let s := if afterBreak then s.indentTo indent else s
  (s.mark ['\''] false false).closed

/-- The marks behind the bar of a block: its indentation where the text does not show it, and what
becomes of the breaks at its end. -/
def blockHints (cs : List Char) : List Char :=
  let indentation := match cs with
    | c :: _ => if c = ' ' || isBreak c then ['2'] else []
    | [] => []
  let ending := match cs.reverse with
    | c :: d :: _ => if !isBreak c then ['-'] else if isBreak d then ['+'] else []
    | [c] => if isBreak c then ['+'] else ['-']
    | [] => ['-']
  indentation ++ ending

/-- A text as a block of lines behind a bar. -/
def literal (s : Sheet) (indent : Nat) (cs : List Char) : Sheet :=
  let s := (s.mark ['|'] true false).mark (blockHints cs) false false
  let s := { s.putBreak '\n' with fresh := true, spaced := true }
  (putLines false indent s true cs).1

/-- A text as it is. -/
def plain (s : Sheet) (cs : List Char) : Sheet :=
  let s := if cs.isEmpty then s else s.space
  (s.putAll cs).closed

/-- A text in a style. -/
def scalar (s : Sheet) (indent : Nat) (style : Style) (cs : List Char) : Sheet :=
  match style with
  | .plain => s.plain cs
  | .singleQuoted => s.singleQuoted indent cs
  | .doubleQuoted => s.doubleQuoted cs
  | .literal => s.literal indent cs

/-- A character that a tag holds as it is. -/
def isTagChar (c : Char) : Bool :=
  c.isAlphanum || "-_;/?:@&=+$,.~*'()[]".toList.contains c

/-- The characters of a tag: those that cannot stand in it as the hexadecimal digits of their
bytes. -/
def tagChars (cs : List Char) : List Char :=
  let byte (b : UInt8) : List Char :=
    let digits := (Nat.toDigits 16 b.toNat).map Char.toUpper
    '%' :: (List.replicate (2 - digits.length) '0' ++ digits)
  cs.flatMap fun c =>
    if isTagChar c then [c] else (String.singleton c).toUTF8.toList.flatMap byte

/-- A tag with one exclamation mark in front, as far as its first null character. -/
def markedTag (tag : String) : List Char :=
  let cs := tag.toList
  (if cs.head? = some '!' then cs else '!' :: cs).takeWhile (· ≠ '\u0000')

/-- The text of a tag; one that is nothing but the exclamation mark goes between angle brackets. -/
def tagText (tag : String) : List Char :=
  match (markedTag tag).drop 1 with
  | [] => ['!', '<'] ++ tagChars ['!'] ++ ['>']
  | rest => '!' :: tagChars rest

/-- A tag in front of a value, if there is one. -/
def tag (s : Sheet) : Option String → Sheet
  | none => s
  | some tag => (s.space.putAll (tagText tag)).closed

end Sheet

/-- Where a value stands. -/
structure Place where
  inMapping : Bool
  asKey : Bool
deriving DecidableEq, Repr

/-- The text of a value that is written in one piece, with the style it asks for. -/
def scalarText? : Value → Option (Style × List Char)
  | .null => some (.plain, "null".toList)
  | .bool b => some (.plain, (if b then "true" else "false").toList)
  | .number (.integer n) => some (.plain, (toString n).toList)
  | .number (.float d) => some (.plain, (d.write .metadata).toList)
  | .string s => some (Style.wanted s.toList, s.toList)
  | _ => none

/-- The longest key, in bytes, that starts its entry without a question mark. -/
def longestKey : Nat := 128

/-- The bytes of a tag, its exclamation mark included. -/
def tagSize (tag : String) : Nat := (String.ofList (Sheet.markedTag tag)).utf8ByteSize

/-- Whether a key keeps to one line and is short. -/
def isSimpleKey (tagLength : Nat) : Value → Bool
  | .sequence [] | .mapping [] => tagLength ≤ longestKey
  | .tagged tag v => isSimpleKey (tagLength + tagSize tag) v
  | v =>
      match scalarText? v with
      | some (_, cs) =>
          !cs.any isBreak && tagLength + (String.ofList cs).utf8ByteSize ≤ longestKey
      | none => false

/-- The indentation of the parts of a value at indentation `indent`; at the top there is none, and
only a scalar starts further in. -/
def deeper (atTop : Nat) : Option Nat → Nat
  | none => atTop
  | some indent => indent + 2

mutual

/-- A value, with the tag that stands before it. -/
def writeNode (place : Place) (indent : Option Nat) (tag : Option String) (s : Sheet) :
    Value → Sheet
  | .tagged inner v => writeNode place indent (some inner) s v
  | .sequence [] => ((s.tag tag).mark ['['] true false).mark [']'] false false
  | .mapping [] => ((s.tag tag).mark ['\x7b'] true false).mark ['\x7d'] false false
  | .sequence items =>
      let s := s.tag tag
      -- Under a key on the same line the hyphens stay in the column of the key.
      let inner := match indent with
        | some indent => if place.inMapping && !s.fresh then indent else indent + 2
        | none => 0
      writeItems inner s items
  | .mapping entries => writeEntries (deeper 0 indent) (s.tag tag) entries
  | .null => writeScalar .null
  | .bool b => writeScalar (.bool b)
  | .number n => writeScalar (.number n)
  | .string t => writeScalar (.string t)
where
  /-- A value in one piece. -/
  writeScalar (v : Value) : Sheet :=
    match scalarText? v with
    | some (style, cs) =>
        (s.tag tag).scalar (deeper 2 indent) (Style.select place.asKey style cs) cs
    | none => s

/-- The items of a sequence, one below the other. -/
def writeItems (indent : Nat) (s : Sheet) : List Value → Sheet
  | [] => s
  | v :: more =>
      let s := (s.indentTo indent).mark ['-'] true true
      writeItems indent (writeNode ⟨false, false⟩ (some indent) none s v) more

/-- The entries of a mapping, one below the other. -/
def writeEntries (indent : Nat) (s : Sheet) : List (Value × Value) → Sheet
  | [] => s
  | (k, v) :: more =>
      let s := s.indentTo indent
      let s :=
        if isSimpleKey 0 k then
          (writeNode ⟨true, true⟩ (some indent) none s k).mark [':'] false false
        else
          let s := writeNode ⟨true, false⟩ (some indent) none (s.mark ['?'] true true) k
          (s.indentTo indent).mark [':'] true true
      writeEntries indent (writeNode ⟨true, false⟩ (some indent) none s v) more

end

end BoundFields.Yaml

namespace BoundFields

/-- The text of a value, which ends in a line feed. -/
def Value.write (v : Value) : Except Yaml.Error String := do
  v.check
  return String.ofList ((Yaml.writeNode ⟨false, false⟩ none none {} v).indentTo 0).written.reverse

/-- A short text of a value on one line: null is empty, a sequence its items between commas, and
what has no text of its own is its written form with spaces for line feeds. -/
def Value.display : Value → String
  | .null => ""
  | .bool b => if b then "true" else "false"
  | .number (.integer n) => toString n
  | .number (.float d) => d.write .metadata
  | .string s => s
  | .sequence items => Text.commaJoined (displayItems items)
  | v@(.mapping _) | v@(.tagged ..) =>
      match v.write with
      | .ok text =>
          String.ofList ((Text.trim text.toList).map fun c => if c = '\n' then ' ' else c)
      | .error _ => ""
where
  /-- The short texts of items. -/
  displayItems : List Value → List String
    | [] => []
    | v :: more => v.display :: displayItems more

end BoundFields
