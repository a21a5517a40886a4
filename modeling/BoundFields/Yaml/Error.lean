/-!
# Faults of metadata text

Why a text cannot be read as metadata, or metadata cannot be written as text.
-/

set_option autoImplicit false

namespace BoundFields.Yaml

/-- What is wrong with a text of metadata, or with metadata that is to be written. -/
inductive Error where
  /-- A control character or another character that no text may hold. -/
  | forbiddenCharacter
  /-- A character that starts nothing. -/
  | unexpectedCharacter
  | badIndentation
  | unfinishedQuote
  | badEscape
  | badName
  | badTag
  | badDirective
  | badBlockHeader
  /-- A key that must be followed by a colon and is not. -/
  | missingColon
  /-- Parts of a document in an order that makes no sense. -/
  | unexpectedPart
  | unknownAlias
  | tooManyAliases
  | tooDeep
  | severalDocuments
  | repeatedKey
  /-- A text that is not of the kind that its tag demands. -/
  | badScalar
  | emptyTag
  /-- A value of another kind than the place asks for. -/
  | unexpectedShape
  | missingEntry (key : String)
  | repeatedEntry (key : String)
  /-- A tagged value directly under a tag, which has no text. -/
  | nestedTag
  /-- A value with the end of a mapping where none is open. -/
  | endOutsideMapping
  | endOutsideDocument
deriving DecidableEq, Repr

namespace Error

/-- The fault in words. -/
def message : Error → String
  | .forbiddenCharacter => "control characters are not allowed"
  | .unexpectedCharacter => "found character that cannot start any token"
  | .badIndentation => "found a part at the wrong indentation"
  | .unfinishedQuote => "found unexpected end of a quoted scalar"
  | .badEscape => "found unknown escape sequence"
  | .badName => "found unexpected character in an anchor or alias"
  | .badTag => "found an invalid tag"
  | .badDirective => "found an invalid directive"
  | .badBlockHeader => "found an invalid block scalar header"
  | .missingColon => "could not find expected ':'"
  | .unexpectedPart => "did not find expected node content"
  | .unknownAlias => "unknown anchor"
  | .tooManyAliases => "repetition limit exceeded"
  | .tooDeep => "recursion limit exceeded"
  | .severalDocuments => "more than one document"
  | .repeatedKey => "duplicate entry"
  | .badScalar => "invalid value for its tag"
  | .emptyTag => "empty YAML tag is not allowed"
  | .unexpectedShape => "invalid type"
  | .missingEntry key => s!"missing field '{key}'"
  | .repeatedEntry key => s!"duplicate field '{key}'"
  | .nestedTag => "serializing nested enums in YAML is not supported yet"
  | .endOutsideMapping => "expected SCALAR, SEQUENCE-START, MAPPING-START, or ALIAS"
  | .endOutsideDocument => "expected DOCUMENT-START or STREAM-END"

end Error

end BoundFields.Yaml
