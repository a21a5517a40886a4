import BoundFields.Yaml.Cursor

/-!
# Tokens

The marks and scalars that a metadata text consists of. Indentation shows as tokens that open and
close blocks.
-/

set_option autoImplicit false

namespace BoundFields.Yaml

/-- How a scalar was written; only a bare one has a meaning beyond its text. -/
inductive Written where
  | bare
  | quoted
  | literal
  | folded
deriving DecidableEq, Repr

/-- The bytes of a tag. Most are those of a text, but digits may spell bytes that are not. -/
abbrev TagBytes := List UInt8

/-- The bytes of a text. -/
def TagBytes.ofText (text : String) : TagBytes := text.toUTF8.data.toList

/-- The text of a tag, if its bytes are those of one. -/
def TagBytes.text? (bytes : TagBytes) : Option String := String.fromUTF8? ⟨bytes.toArray⟩

/-- What a text of metadata is made of. -/
inductive Token where
  | streamEnd
  | versionDirective (major minor : Nat)
  | tagDirective (handle : String) (start : TagBytes)
  | documentStart
  | documentEnd
  | blockSequenceStart
  | blockMappingStart
  | blockEnd
  | flowSequenceStart
  | flowSequenceEnd
  | flowMappingStart
  | flowMappingEnd
  | blockEntry
  | flowEntry
  | key
  | value
  | alias (name : String)
  | anchor (name : String)
  | tag (handle : String) (ending : TagBytes)
  | scalar (written : Written) (text : List Char)
deriving DecidableEq, Repr

end BoundFields.Yaml
