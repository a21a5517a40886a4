import BoundFields.Yaml.Token.Basic

/-!
# Scalars in a text

Bare, quoted and block scalars. Within the first two, a single line break is a space and each
further one stays; what becomes of spaces around breaks is the same for both (`Gap`).
-/

set_option autoImplicit false

namespace BoundFields.Yaml

/-- A run of spaces and line breaks in a scalar: the spaces before the first break, that break,
and the breaks behind it. -/
structure Gap where
  spaces : List Char := []
  firstBreak : List Char := []
  moreBreaks : List Char := []
  /-- A line has ended. -/
  broken : Bool := false
deriving Repr, DecidableEq

namespace Gap

/-- What a run of spaces and breaks is in the text of the scalar. -/
def folded (g : Gap) : List Char :=
  if !g.broken then g.spaces
  else if g.firstBreak = ['\n'] then (if g.moreBreaks.isEmpty then [' '] else g.moreBreaks)
  else g.firstBreak ++ g.moreBreaks

/-- The spaces and breaks from a place on, behind those of `g`. With `indent`, a tab before that
column of a new line is an error. -/
def read (indent : Option Nat) : Nat → Gap → Cursor → Except Error (Gap × Cursor)
  | 0, g, c => .ok (g, c)
  | fuel + 1, g, c =>
      match c.peek? with
      | none => .ok (g, c)
      | some ch =>
          if isSpaceOrTab ch then
            if g.broken && ch = '\t' && indent.any (c.column < ·) then .error .badIndentation
            else
              let g := if g.broken then g else { g with spaces := g.spaces ++ [ch] }
              read indent fuel g (c.skip 1)
          else if isBreak ch then
            let (b, c) := c.nextLine
            let g :=
              if g.broken then { g with moreBreaks := g.moreBreaks ++ b }
              else { g with spaces := [], firstBreak := b, broken := true }
            read indent fuel g c
          else .ok (g, c)

end Gap

/-! ## Quoted scalars -/

/-- The value of hexadecimal digits, if there are `count` of them. -/
def hexValue? (count : Nat) (cs : List Char) : Option Nat :=
  let digits := cs.take count
  if digits.length < count then none else Plain.natIn? 16 digits

/-- The character of an escape sequence, and how many characters behind the backslash it takes. -/
def escapedChar? : List Char → Option (Char × Nat)
  | '0' :: _ => some ('\u0000', 1)
  | 'a' :: _ => some ('\u0007', 1)
  | 'b' :: _ => some ('\u0008', 1)
  | 't' :: _ | '\t' :: _ => some ('\t', 1)
  | 'n' :: _ => some ('\n', 1)
  | 'v' :: _ => some ('\u000B', 1)
  | 'f' :: _ => some ('\u000C', 1)
  | 'r' :: _ => some ('\r', 1)
  | 'e' :: _ => some ('\u001B', 1)
  | ' ' :: _ => some (' ', 1)
  | '"' :: _ => some ('"', 1)
  | '/' :: _ => some ('/', 1)
  | '\\' :: _ => some ('\\', 1)
  | 'N' :: _ => some ('\u0085', 1)
  | '_' :: _ => some ('\u00A0', 1)
  | 'L' :: _ => some ('\u2028', 1)
  | 'P' :: _ => some ('\u2029', 1)
  | 'x' :: cs => coded 2 cs
  | 'u' :: cs => coded 4 cs
  | 'U' :: cs => coded 8 cs
  | _ => none
where
  /-- The character with a code of `count` hexadecimal digits. -/
  coded (count : Nat) (cs : List Char) : Option (Char × Nat) :=
    (hexValue? count cs).bind fun n =>
      if n.isValidChar then some (Char.ofNat n, count + 1) else none

/-- What stopped the reading of a line of a quoted scalar. -/
inductive Stop where
  | quote
  | gap
  /-- A line break behind a backslash. -/
  | escapedBreak
deriving DecidableEq, Repr

/-- The characters of a quoted scalar up to a quote, a space or a line break. -/
def quotedRun (single : Bool) : Nat → Cursor → Except Error (List Char × Stop × Cursor)
  | 0, _ => .error .unfinishedQuote
  | fuel + 1, c =>
      match c.rest with
      | [] => .ok ([], .gap, c)
      | ch :: rest =>
          if isSpaceOrTab ch || isBreak ch then .ok ([], .gap, c)
          else if single && ch = '\'' && rest.head? = some '\'' then do
            let (text, stop, c) ← quotedRun single fuel (c.skip 2)
            .ok ('\'' :: text, stop, c)
          else if ch = (if single then '\'' else '"') then .ok ([], .quote, c)
          else if !single && ch = '\\' then
            if rest.head?.any isBreak then .ok ([], .escapedBreak, (c.skip 1).nextLine.2)
            else match escapedChar? rest with
              | none => .error .badEscape
              | some (d, count) => do
                  let (text, stop, c) ← quotedRun single fuel (c.skip (count + 1))
                  .ok (d :: text, stop, c)
          else do
            let (text, stop, c) ← quotedRun single fuel (c.skip 1)
            .ok (ch :: text, stop, c)

/-- The text of a quoted scalar from behind its opening quote, and the place behind the closing
one. -/
def quotedScalar (single : Bool) : Nat → Cursor → Except Error (List Char × Cursor)
  | 0, _ => .error .unfinishedQuote
  | fuel + 1, c => do
      if c.isDocumentMark || c.rest.isEmpty then
        throw .unfinishedQuote
      let (text, stop, c) ← quotedRun single (c.rest.length + 1) c
      if stop = .quote then
        return (text, c.skip 1)
      let (gap, c) ← Gap.read none (c.rest.length + 1) { broken := stop = .escapedBreak } c
      let (more, c) ← quotedScalar single fuel c
      return (text ++ gap.folded ++ more, c)

/-! ## Bare scalars -/

/-- A character that ends a bare scalar within brackets. -/
def isFlowMark (c : Char) : Bool := c = ',' || c = '[' || c = ']' || c = '\x7b' || c = '\x7d'

/-- The characters of a bare scalar up to a space, a line break or a mark that ends it. -/
def bareRun (inFlow : Bool) : List Char → Except Error (List Char)
  | [] => .ok []
  | c :: cs =>
      if isSpaceOrTab c || isBreak c then .ok []
      else if inFlow && c = ':' && cs.head?.any (fun d => isFlowMark d || d = '?') then
        .error .unexpectedCharacter
      else if c = ':' && (match cs with | [] => true | d :: _ => isSpaceOrTab d || isBreak d) then
        .ok []
      else if inFlow && isFlowMark c then .ok []
      else do return c :: (← bareRun inFlow cs)

/-- The text of a bare scalar, the place behind it and the spaces that follow it, and whether a
line ended there. In a block, a line that starts before column `indent` is not part of it. -/
def bareScalar (inFlow : Bool) (indent : Nat) :
    Nat → Gap → Cursor → Except Error (List Char × Cursor × Bool)
  | 0, gap, c => .ok ([], c, gap.broken)
  | fuel + 1, gap, c => do
      if c.isDocumentMark || c.isAt '#' then
        return ([], c, gap.broken)
      let run ← bareRun inFlow c.rest
      if run.isEmpty then
        return ([], c, gap.broken)
      let text := gap.folded ++ run
      let (gap, c) ← Gap.read (some indent) (c.rest.length + 1) {} (c.skip run.length)
      if gap = {} || (!inFlow && c.column < indent) then
        return (text, c, gap.broken)
      let (more, c, broken) ← bareScalar inFlow indent fuel gap c
      return (text ++ more, c, broken)

/-! ## Block scalars -/

/-- What becomes of the breaks at the end of a block scalar. -/
inductive Chomping where
  | strip
  | clip
  | keep
deriving DecidableEq, Repr

/-- The header of a block scalar: chomping and the digit of its indentation, 0 for none. -/
def blockHeader (cs : List Char) : Except Error (Chomping × Nat × List Char) :=
  let chomping? : List Char → Option (Chomping × List Char)
    | '+' :: rest => some (.keep, rest)
    | '-' :: rest => some (.strip, rest)
    | _ => none
  let digit : List Char → Except Error (Nat × List Char)
    | d :: rest =>
        if d = '0' then .error .badBlockHeader
        else if d.isDigit then .ok (digitValue d, rest)
        else .ok (0, d :: rest)
    | [] => .ok (0, [])
  match chomping? cs with
  | some (chomping, rest) => (digit rest).map fun (n, rest) => (chomping, n, rest)
  | none => (digit cs).map fun (n, rest) =>
      if n = 0 then (.clip, n, rest)
      else match chomping? rest with
        | some (chomping, rest) => (chomping, n, rest)
        | none => (.clip, n, rest)

/-- The spaces of indentation and the breaks from a place on: the breaks, the greatest column
reached, and the place behind them. Indentation goes up to column `indent`, without limit for
none. -/
def blockBreaks (indent : Option Nat) : Nat → List Char → Nat → Cursor →
    Except Error (List Char × Nat × Cursor)
  | 0, breaks, widest, c => .ok (breaks, widest, c)
  | fuel + 1, breaks, widest, c =>
      let spaces := (c.rest.takeWhile (· = ' ')).length
      let c := c.skip (match indent with
        | some n => min spaces (n - c.column)
        | none => spaces)
      let widest := max widest c.column
      if indent.all (c.column < ·) && c.isAt '\t' then .error .badIndentation
      else if c.peek?.any isBreak then
        let (b, c) := c.nextLine
        blockBreaks indent fuel (breaks ++ b) widest c
      else .ok (breaks, widest, c)

/-- The lines of a block scalar at column `indent`, behind the break `leading` of the line before
and the breaks `trailing` of empty lines: the text, with the breaks left at its end. -/
def blockLines (isLiteral : Bool) (indent : Nat) :
    Nat → List Char → List Char → Bool → Cursor →
      Except Error (List Char × List Char × List Char × Cursor)
  | 0, leading, trailing, _, c => .ok ([], leading, trailing, c)
  | fuel + 1, leading, trailing, afterBlank, c => do
      if c.column ≠ indent || c.rest.isEmpty then
        return ([], leading, trailing, c)
      -- Lines further in keep their breaks; between two lines that are not, a single break folds.
      let startsBlank := c.peek?.any isSpaceOrTab
      let joined :=
        if !isLiteral && leading = ['\n'] && !afterBlank && !startsBlank then
          (if trailing.isEmpty then [' '] else []) ++ trailing
        else leading ++ trailing
      let line := c.takeWhile (!isBreak ·)
      let (leading, c) := (c.skip line.length).nextLine
      let (trailing, _, c) ← blockBreaks (some indent) (c.rest.length + 1) [] 0 c
      let (more, leading, trailing, c) ←
        blockLines isLiteral indent fuel leading trailing startsBlank c
      return (joined ++ line ++ more, leading, trailing, c)

/-- A block scalar from behind its bar or angle; `parent` is the indentation of the block around
it, if any. -/
def blockScalar (isLiteral : Bool) (parent : Option Nat) (c : Cursor) :
    Except Error (List Char × Cursor) := do
  let (chomping, digit, rest) ← blockHeader c.rest
  let c := (c.skip (c.rest.length - rest.length)).skipWhile isSpaceOrTab
  let c := if c.isAt '#' then c.skipWhile (!isBreak ·) else c
  if !c.isLineEnd then
    throw .badBlockHeader
  let c := c.nextLine.2
  let given := if digit = 0 then none else some (parent.getD 0 + digit)
  let (trailing, widest, c) ← blockBreaks given (c.rest.length + 1) [] 0 c
  -- Without a digit the first line of the text decides, but it must lie inside the parent.
  let least := match parent with
    | some n => n + 1
    | none => 1
  let indent := given.getD (max widest least)
  let (text, leading, trailing, c) ←
    blockLines isLiteral indent (c.rest.length + 1) [] trailing false c
  let ending := match chomping with
    | .strip => []
    | .clip => leading
    | .keep => leading ++ trailing
  return (text ++ ending, c)

end BoundFields.Yaml
