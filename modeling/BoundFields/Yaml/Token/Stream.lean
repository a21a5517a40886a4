import BoundFields.Yaml.Token.Scalar
import BoundFields.Yaml.Token.Tag

/-!
# The tokens of a text

A text is taken apart from left to right. A key without a mark of its own is known only when its
colon is met, so its place among the tokens is kept until then (`PendingKey`). The indentation of
a key or an item opens a block, and a token further left closes it.
-/

set_option autoImplicit false

namespace BoundFields.Yaml

/-- A place where a key may have started. -/
structure PendingKey where
  /-- How many tokens come before it. -/
  position : Nat
  index : Nat
  line : Nat
  column : Nat
  /-- The place is one where only a key can stand. -/
  required : Bool
deriving Repr, DecidableEq

/-- The most bytes between the start of a key and its colon. -/
def longestPendingKey : Nat := 1024

/-- The tokens found so far and all that the next one depends on. -/
structure Tokenizer where
  cursor : Cursor
  tokens : Array Token := #[]
  /-- The columns of the open blocks, innermost first. -/
  blocks : List Nat := []
  /-- What may be a key within each open bracket, innermost first, and outside of all. -/
  pending : List (Option PendingKey) := [none]
  keyAllowed : Bool := true

namespace Tokenizer

/-- Whether a bracket is open. -/
def inFlow (t : Tokenizer) : Bool := 1 < t.pending.length

/-- The column of the innermost block. -/
def indent? (t : Tokenizer) : Option Nat := t.blocks.head?

/-- The tokenizer with one more token. -/
def push (t : Tokenizer) (token : Token) : Tokenizer := { t with tokens := t.tokens.push token }

/-- The tokenizer some characters further on. -/
def skip (t : Tokenizer) (n : Nat) : Tokenizer := { t with cursor := t.cursor.skip n }

/-- Over spaces, comments and line ends to the next token. Tabs count as spaces where no key can
start. A mark of byte order at the start of a line is passed over like a space, and takes a column
as one. -/
def toNextToken : Nat → Tokenizer → Tokenizer
  | 0, t => t
  | fuel + 1, t =>
      let c := if t.cursor.column == 0 && t.cursor.isAt '\uFEFF' then t.cursor.skip 1 else t.cursor
      let c := c.skipWhile fun ch => ch = ' ' || (ch = '\t' && (t.inFlow || !t.keyAllowed))
      let c := if c.isAt '#' then c.skipWhile (!isBreak ·) else c
      if c.peek?.any isBreak then
        toNextToken fuel { t with cursor := c.nextLine.2, keyAllowed := t.keyAllowed || !t.inFlow }
      else { t with cursor := c }

/-- Gives up the places that can no longer be keys: a key keeps to one line and is not long. -/
def dropStale (t : Tokenizer) : Except Error Tokenizer := do
  let check : Option PendingKey → Except Error (Option PendingKey)
    | none => .ok none
    | some key =>
        if key.line < t.cursor.line || key.index + longestPendingKey < t.cursor.index then
          if key.required then .error .missingColon else .ok none
        else .ok (some key)
  return { t with pending := ← t.pending.mapM check }

/-- Gives up the place that may be a key within the innermost bracket. -/
def dropPending (t : Tokenizer) : Except Error Tokenizer :=
  match t.pending with
  | some key :: more =>
      if key.required then .error .missingColon else .ok { t with pending := none :: more }
  | _ => .ok t

/-- Notes that a key may start here. -/
def notePending (t : Tokenizer) : Except Error Tokenizer :=
  if t.keyAllowed then do
    let t ← t.dropPending
    let key : PendingKey :=
      { position := t.tokens.size, index := t.cursor.index, line := t.cursor.line
        column := t.cursor.column
        required := !t.inFlow && t.indent? = some t.cursor.column }
    return { t with pending := some key :: t.pending.drop 1 }
  else .ok t

/-- Opens a block at a column, if it lies further in than the innermost one; the token that opens
it comes behind the first `position` tokens. -/
def openBlock (t : Tokenizer) (column position : Nat) (token : Token) : Tokenizer :=
  if t.inFlow || !t.indent?.all (· < column) then t
  else
    { t with
      blocks := column :: t.blocks
      tokens := (t.tokens.extract 0 position).push token
        ++ t.tokens.extract position t.tokens.size }

/-- Closes the blocks further in than a column; all of them without one. -/
def closeBlocks (column? : Option Nat) (t : Tokenizer) : Tokenizer :=
  if t.inFlow then t
  else
    let closed := t.blocks.takeWhile fun b => column?.all (· < b)
    { t with
      blocks := t.blocks.drop closed.length
      tokens := t.tokens ++ (closed.map fun _ => Token.blockEnd).toArray }

/-- What the end of the text, a directive and a document mark have in common. -/
def leaveBlocks (t : Tokenizer) : Except Error Tokenizer := do
  let t ← (closeBlocks none t).dropPending
  return { t with keyAllowed := false }

/-- An opening bracket, which may start a key. -/
def openFlow (t : Tokenizer) (token : Token) : Except Error Tokenizer := do
  let t ← t.notePending
  return { (t.push token).skip 1 with pending := none :: t.pending, keyAllowed := true }

/-- A closing bracket; what may have been a key within is none. -/
def closeFlow (t : Tokenizer) (token : Token) : Except Error Tokenizer := do
  let t ← t.dropPending
  let pending := if t.inFlow then t.pending.drop 1 else t.pending
  return { (t.push token).skip 1 with pending, keyAllowed := false }

/-- A comma between brackets. -/
def flowEntry (t : Tokenizer) : Except Error Tokenizer := do
  let t ← t.dropPending
  return { (t.push .flowEntry).skip 1 with keyAllowed := true }

/-- A hyphen in front of an item, which opens a sequence if none is open in its column. -/
def blockEntry (t : Tokenizer) : Except Error Tokenizer := do
  if !t.inFlow && !t.keyAllowed then
    throw .badIndentation
  let t ← (t.openBlock t.cursor.column t.tokens.size .blockSequenceStart).dropPending
  return { (t.push .blockEntry).skip 1 with keyAllowed := true }

/-- A question mark in front of a key, which opens a mapping if none is open in its column. -/
def key (t : Tokenizer) : Except Error Tokenizer := do
  if !t.inFlow && !t.keyAllowed then
    throw .badIndentation
  let t ← (t.openBlock t.cursor.column t.tokens.size .blockMappingStart).dropPending
  return { (t.push .key).skip 1 with keyAllowed := !t.inFlow }

/-- A colon in front of a value. -/
def value (t : Tokenizer) : Except Error Tokenizer :=
  match t.pending with
  | some key :: more =>
      -- What stands before the colon turns out to be a key: its mark goes in front of it.
      let tokens := (t.tokens.extract 0 key.position).push .key
        ++ t.tokens.extract key.position t.tokens.size
      let t := { t with tokens, pending := none :: more, keyAllowed := false }
      .ok (((t.openBlock key.column key.position .blockMappingStart).push .value).skip 1)
  | _ =>
      if !t.inFlow && !t.keyAllowed then .error .badIndentation
      else
        -- A colon without a key before it: the key is missing, or has its own mark.
        let t := t.openBlock t.cursor.column t.tokens.size .blockMappingStart
        .ok { (t.push .value).skip 1 with keyAllowed := !t.inFlow }

/-- A token that may be the start of a key. -/
def keyPart (t : Tokenizer) (read : Cursor → Except Error (Token × Cursor)) :
    Except Error Tokenizer := do
  let t ← t.notePending
  let (token, cursor) ← read t.cursor
  return { t.push token with cursor, keyAllowed := false }

/-- A scalar that is a block of lines. -/
def blockScalarToken (t : Tokenizer) (isLiteral : Bool) : Except Error Tokenizer := do
  let t ← t.dropPending
  let (text, cursor) ← blockScalar isLiteral t.indent? (t.cursor.skip 1)
  let written := if isLiteral then Written.literal else .folded
  return { t.push (.scalar written text) with cursor, keyAllowed := true }

/-- A scalar between quotes, which may be a key. -/
def quotedScalarToken (t : Tokenizer) (single : Bool) : Except Error Tokenizer :=
  t.keyPart fun c => do
    let (text, c) ← quotedScalar single (c.rest.length + 1) (c.skip 1)
    return (.scalar .quoted text, c)

/-- A scalar without marks, which may be a key; behind one of several lines a key can start. -/
def bareScalarToken (t : Tokenizer) : Except Error Tokenizer := do
  let t ← t.notePending
  let indent := match t.indent? with
    | some n => n + 1
    | none => 0
  let (text, cursor, broken) ←
    bareScalar t.inFlow indent (t.cursor.rest.length + 1) {} t.cursor
  return { t.push (.scalar .bare text) with cursor, keyAllowed := broken }

/-- Whether a bare scalar starts here, at the character `ch`. -/
def startsBare (t : Tokenizer) (ch : Char) : Bool :=
  let c := t.cursor
  !(c.isBlankAt 0 || "-?:,[]\x7b\x7d#&*!|>'\"%@`".toList.contains ch)
    || (ch = '-' && !c.sees 1 isSpaceOrTab false)
    || (!t.inFlow && (ch = '?' || ch = ':') && !c.isBlankAt 1)

/-- The next token, at the character `ch`. -/
def nextToken (t : Tokenizer) (ch : Char) : Except Error Tokenizer := do
  let c := t.cursor
  -- Directives and document marks count only at the start of a line, but there they count
  -- even within brackets.
  if c.column == 0 && ch = '%' then
    let t ← t.leaveBlocks
    let (token, cursor) ← readDirective (c.skip 1)
    return { t.push token with cursor }
  if c.isDocumentMark then
    let t ← t.leaveBlocks
    return (t.push (if ch = '-' then .documentStart else .documentEnd)).skip 3
  match ch with
  | '[' => t.openFlow .flowSequenceStart
  | '\x7b' => t.openFlow .flowMappingStart
  | ']' => t.closeFlow .flowSequenceEnd
  | '\x7d' => t.closeFlow .flowMappingEnd
  | ',' => t.flowEntry
  | _ =>
    if ch = '-' && c.isBlankAt 1 then t.blockEntry
    else if ch = '?' && (t.inFlow || c.isBlankAt 1) then t.key
    else if ch = ':' && (t.inFlow || c.isBlankAt 1) then t.value
    else if ch = '*' then
      t.keyPart fun c => (readName (c.skip 1)).map fun (name, c) => (.alias name, c)
    else if ch = '&' then
      t.keyPart fun c => (readName (c.skip 1)).map fun (name, c) => (.anchor name, c)
    else if ch = '!' then t.keyPart (readTag t.inFlow)
    else if ch = '|' && !t.inFlow then t.blockScalarToken true
    else if ch = '>' && !t.inFlow then t.blockScalarToken false
    else if ch = '\'' then t.quotedScalarToken true
    else if ch = '"' then t.quotedScalarToken false
    else if t.startsBare ch then t.bareScalarToken
    else throw .unexpectedCharacter

/-- All tokens to the end of the text; each takes a character, so its length is enough. -/
def run : Nat → Tokenizer → Except Error (List Token)
  | 0, _ => .error .unexpectedCharacter
  | fuel + 1, t => do
      let t ← (toNextToken (t.cursor.rest.length + 1) t).dropStale
      let t := closeBlocks (some t.cursor.column) t
      match t.cursor.peek? with
      | none => return ((← t.leaveBlocks).push .streamEnd).tokens.toList
      | some ch => run fuel (← t.nextToken ch)

end Tokenizer

/-- The tokens of a text. -/
def Token.ofText (cs : List Char) : Except Error (List Token) :=
  if !cs.all isAllowed then .error .forbiddenCharacter
  else Tokenizer.run (cs.length + 1) { cursor := { rest := cs } }

end BoundFields.Yaml
