import BoundFields.Yaml.Token.Basic

/-!
# Tags, anchors and directives in a text

A tag is a handle and an ending, or an ending in angle brackets; bytes of it may be written as
hexadecimal digits behind a percent sign. A null byte ends a tag.
-/

set_option autoImplicit false

namespace BoundFields.Yaml

/-- A letter, a digit, a hyphen or an underscore. -/
def isNameChar (c : Char) : Bool := c.isAlphanum || c = '_' || c = '-'

/-- The name behind a mark of an anchor or alias, and the place behind it. -/
def readName (c : Cursor) : Except Error (String × Cursor) :=
  let name := c.takeWhile isNameChar
  let c := c.skip name.length
  let ends := c.isBlankAt 0 || c.sees 0 (fun d => "?:,]%@`\x7d".toList.contains d) false
  if name.isEmpty || !ends then .error .badName else .ok (String.ofList name, c)

/-- A character of a tag; within angle brackets a few more are. -/
def isTagUriChar (verbatim : Bool) (c : Char) : Bool :=
  isNameChar c || ";/?:@&=+$.%!~*'()".toList.contains c || (verbatim && ",[]".toList.contains c)

/-- How many bytes a character takes that starts with this byte. -/
def widthFrom? (first : UInt8) : Option Nat :=
  if first < 0x80 then some 1
  else if first < 0xC0 then none
  else if first < 0xE0 then some 2
  else if first < 0xF0 then some 3
  else if first < 0xF8 then some 4
  else none

/-- The bytes of a tag ending, given as characters or as hexadecimal digits; `missing` bytes of a
character that digits have started are still to come. -/
def tagBytes (missing : Nat) : List Char → Except Error TagBytes
  | [] => if missing = 0 then .ok [] else .error .badTag
  | '%' :: a :: b :: cs =>
      match (Plain.natIn? 16 [a, b]).map UInt8.ofNat with
      | none => .error .badTag
      | some byte =>
          if missing = 0 then
            match widthFrom? byte with
            | some width => (tagBytes (width - 1) cs).map (byte :: ·)
            | none => .error .badTag
          else if 0x80 ≤ byte && byte < 0xC0 then (tagBytes (missing - 1) cs).map (byte :: ·)
          else .error .badTag
  | c :: cs =>
      if c = '%' || missing ≠ 0 then .error .badTag
      else (tagBytes 0 cs).map (TagBytes.ofText (String.singleton c) ++ ·)

/-- The ending of a tag from a place on, behind the characters `head` of it, as far as the first
null byte, and whether it had any characters at all. -/
def readTagEnding (verbatim : Bool) (head : List Char) (c : Cursor) :
    Except Error (TagBytes × Bool × Cursor) := do
  let raw := c.takeWhile (isTagUriChar verbatim)
  let bytes ← tagBytes 0 raw
  let ending := TagBytes.ofText (String.ofList head) ++ bytes
  return (ending.takeWhile (· ≠ 0), !ending.isEmpty, c.skip raw.length)

/-- An exclamation mark, letters, and another exclamation mark if there is one. -/
def readTagHandle (c : Cursor) : Except Error (List Char × Cursor) :=
  if !c.isAt '!' then .error .badTag
  else
    let name := (c.skip 1).takeWhile isNameChar
    let c := c.skip (1 + name.length)
    if c.isAt '!' then .ok ('!' :: name ++ ['!'], c.skip 1) else .ok ('!' :: name, c)

/-- A tag and the place behind it. -/
def readTag (inFlow : Bool) (c : Cursor) : Except Error (Token × Cursor) := do
  let (token, c) ←
    if c.sees 1 (· = '<') false then do
      let (ending, isGiven, after) ← readTagEnding true [] (c.skip 2)
      if !isGiven || !after.isAt '>' then
        throw .badTag
      pure (Token.tag "" ending, after.skip 1)
    else do
      let (handle, after) ← readTagHandle c
      if 1 < handle.length && handle.getLast? = some '!' then
        let (ending, isGiven, after) ← readTagEnding false [] after
        if !isGiven then
          throw .badTag
        pure (Token.tag (String.ofList handle) ending, after)
      else
        let (ending, _, after) ← readTagEnding false (handle.drop 1) after
        if ending.isEmpty then pure (Token.tag "" (.ofText "!"), after)
        else pure (Token.tag "!" ending, after)
  if (inFlow && c.isAt ',') || c.isBlankAt 0 then return (token, c) else throw .badTag

/-- The digits of one part of a version. -/
def readVersionPart (c : Cursor) : Except Error (Nat × Cursor) :=
  let digits := c.takeWhile Char.isDigit
  if digits.isEmpty || 9 < digits.length then .error .badDirective
  else .ok (valueOfDigits digits, c.skip digits.length)

/-- A directive from behind its percent sign up to the end of its line. -/
def readDirective (c : Cursor) : Except Error (Token × Cursor) := do
  let name := c.takeWhile isNameChar
  let c := c.skip name.length
  if name.isEmpty || !c.isBlankAt 0 then
    throw .badDirective
  let c := c.skipWhile isSpaceOrTab
  let (token, c) ← match String.ofList name with
    | "YAML" => do
        let (major, c) ← readVersionPart c
        if !c.isAt '.' then
          throw .badDirective
        let (minor, c) ← readVersionPart (c.skip 1)
        pure (Token.versionDirective major minor, c)
    | "TAG" => do
        let (handle, c) ← readTagHandle c
        if handle ≠ ['!'] && handle.getLast? ≠ some '!' then
          throw .badDirective
        if !c.sees 0 isSpaceOrTab false then
          throw .badDirective
        let c := c.skipWhile isSpaceOrTab
        let (start, isGiven, c) ← readTagEnding true [] c
        if !isGiven || !c.isBlankAt 0 then
          throw .badDirective
        pure (Token.tagDirective (String.ofList handle) start, c)
    | _ => throw .badDirective
  let c := c.skipWhile isSpaceOrTab
  let c := if c.isAt '#' then c.skipWhile (!isBreak ·) else c
  if !c.isLineEnd then
    throw .badDirective
  return (token, c.nextLine.2)

end BoundFields.Yaml
