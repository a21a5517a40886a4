import BoundFields.Metadata.FrontMatter

/-!
# Finding declarations in documents

A declaration stands in a code span of a line, or makes up a fenced block whose info string says
so. Front matter and other fenced blocks are passed over. The scan goes line by line and
remembers nothing but the block that is open.
-/

set_option autoImplicit false

namespace BoundFields

/-- How a declaration is embedded in its document. -/
inductive SiteKind where
  | inline
  | codeBlock
deriving DecidableEq, Repr

/-- A declaration found in a document, and the number of its line, counted from one. -/
structure Site where
  text : String
  kind : SiteKind
  line : Nat
deriving DecidableEq, Repr

namespace Scan

/-- The info string of a block that is a declaration. -/
def blockLanguage : List Char := "meta-bind".toList

/-- The mark that starts and ends a code span. -/
def spanMark : Char := '\x60'

/-- The marks that open and close a fenced block. -/
def fenceMarks : List (List Char) := [List.replicate 3 spanMark, "~~~".toList]

/-- Whether a text has the outer form of a declaration. -/
def isCandidate (cs : List Char) : Bool :=
  (Text.dropPrefix? "INPUT[".toList cs).isSome && cs.getLast? = some ']'

/-- The code spans among the pieces between marks, the first piece standing behind a mark. A span
is not empty, and its end mark starts no other. -/
def spans : List (List Char) → List (List Char)
  | inside :: outside :: more =>
      if inside.isEmpty then spans (outside :: more) else inside :: spans more
  | _ => []

/-- The contents of the code spans of a line. -/
def codeSpans (line : List Char) : List (List Char) := spans (line.splitOn spanMark).tail

/-- A fenced block that is open. -/
structure Fence where
  marker : List Char
  isDeclaration : Bool
  /-- The line behind the opening one. -/
  startLine : Nat
  /-- The lines so far, kept for a declaration only. -/
  content : List Char
deriving DecidableEq, Repr

/-- The block that a line opens. -/
def Fence.open? (number : Nat) (trimmed : List Char) : Option Fence :=
  fenceMarks.findSome? fun marker =>
    (Text.dropPrefix? marker trimmed).map fun info =>
      { marker, isDeclaration := Text.trim info = blockLanguage, startLine := number + 1,
        content := [] }

/-- Whether a line closes the block. -/
def Fence.isClosedBy (f : Fence) (trimmed : List Char) : Bool :=
  (Text.dropPrefix? f.marker trimmed).isSome && Text.trimEnd trimmed = f.marker

/-- The block with one more line. -/
def Fence.extend (f : Fence) (line : List Char) : Fence :=
  if f.isDeclaration then { f with content := f.content ++ line ++ ['\n'] } else f

/-- The declaration that a block is. -/
def Fence.site? (f : Fence) : Option Site :=
  let content := Text.trim f.content
  if f.isDeclaration && isCandidate content then
    some ⟨String.ofList content, .codeBlock, f.startLine⟩
  else none

/-- The declarations in the code spans of a line. -/
def inlineSites (number : Nat) (line : List Char) : List Site :=
  (codeSpans line).filterMap fun span =>
    let text := Text.trim span
    if isCandidate text then some ⟨String.ofList text, .inline, number⟩ else none

/-- The declarations in a run of lines, the first of which has the given number, with the block
that is open before it. -/
def scanLines : Option Fence → Nat → List (List Char) → List Site
  | _, _, [] => []
  | some f, number, line :: more =>
      -- Within a block nothing but its closing line has a meaning.
      if f.isClosedBy (Text.trimStart line) then
        f.site?.toList ++ scanLines none (number + 1) more
      else scanLines (some (f.extend line)) (number + 1) more
  | none, number, line :: more =>
      match Fence.open? number (Text.trimStart line) with
      | some f => scanLines (some f) (number + 1) more
      | none => inlineSites number line ++ scanLines none (number + 1) more

/-- The declarations in a document, in order. -/
def scan (document : String) : List Site :=
  let start := FrontMatter.bodyStartLine document
  scanLines none start ((Text.lines document.toList).drop (start - 1))

end Scan

end BoundFields
