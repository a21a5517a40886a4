import BoundFields.Text.Pieces
import BoundFields.Number.Style
import BoundFields.Declaration.Kind
import BoundFields.Yaml.Error

/-!
# Errors

The causes for which an operation is refused, and their wording (`Error.message`). Only a missing
template leaves a declaration that can still be used (`Error.isRecoverable`). A `Fault` is either
such an error or the one event that ends a whole run: a date control asked to write a date in a
format for more than dates.
-/

set_option autoImplicit false

namespace BoundFields

/-- What is wrong with the text of a declaration. -/
inductive SyntaxProblem where
  | missingStart
  | textBehindGroups
  | emptyTemplateName
  | tooManyGroups
  | emptyDeclaration
  | emptyTarget
  | unexpectedCharacter
  | missingArgumentName
  | unclosedArgument
  | unclosedArgumentList
  | unterminatedValue
  | unterminatedString
  | unclosedGroup
  | templateInTemplate
  | missingType
deriving DecidableEq, Repr

namespace SyntaxProblem

/-- The problem in words. -/
def message : SyntaxProblem → String
  | .missingStart => "declaration must start with 'INPUT['"
  | .textBehindGroups => "unexpected text after closing ']'"
  | .emptyTemplateName => "empty template name"
  | .tooManyGroups =>
      "too many bracket groups, expected INPUT[template][declaration] at most"
  | .emptyDeclaration => "empty declaration"
  | .emptyTarget => "empty bind target after ':'"
  | .unexpectedCharacter => "unexpected character"
  | .missingArgumentName => "expected argument name"
  | .unclosedArgument => "expected ')' after argument value"
  | .unclosedArgumentList => "expected ',' or ')' in argument list"
  | .unterminatedValue => "unterminated argument value"
  | .unterminatedString => "unterminated string"
  | .unclosedGroup => "missing closing ']'"
  | .templateInTemplate => "templates cannot reference other templates"
  | .missingType => "missing input field type"

end SyntaxProblem

/-- A problem in the text of a declaration, where it was noticed (counted in characters), and the
text there. -/
structure SyntaxError where
  problem : SyntaxProblem
  position : Option Nat := none
  snippet : Option String := none
deriving DecidableEq, Repr

namespace SyntaxError

/-- The problem, with the place and the text there if they are known. -/
def message (e : SyntaxError) : String :=
  let place := match e.position with
    | some position => s!" at position {position}"
    | none => ""
  let snippet := match e.snippet with
    | some snippet => s!" near '{snippet}'"
    | none => ""
  s!"Syntax error: {e.problem.message}{place}{snippet}"

end SyntaxError

/-- What the value of an argument should have been. -/
inductive Expectation where
  | ofShape (shape : ValueShape) (dateFormat : String)
  | atMostOnce
  | notBelow (min : Double)
  | notBeforeMinDate
  | trueOrFalse
  | between (min max : Double)
  | oneOf (options : List String)
  | listOf (options : List String)
  | dateIn (format : String)
  | timeOfDay
deriving DecidableEq, Repr

/-- The form of an argument's value in words. -/
def ValueShape.describe (shape : ValueShape) (dateFormat : String) : String :=
  match shape with
  | .flag => "no value"
  | .number => "a number"
  | .positiveNumber => "a number greater than zero"
  | .text => "text"
  | .nonEmptyText => "non-empty text"
  | .className => "a class name (letters, digits, '-' or '_')"
  | .date => s!"a date in the format '{dateFormat}'"

namespace Expectation

/-- What was expected, in words. -/
def message : Expectation → String
  | .ofShape shape dateFormat => shape.describe dateFormat
  | .atMostOnce => "at most one occurrence"
  | .notBelow min => "a number not less than minValue (" ++ min.write .message ++ ")"
  | .notBeforeMinDate => "a date not before minDate"
  | .trueOrFalse => "'true' or 'false'"
  | .between min max => "a number between " ++ min.write .message ++ " and " ++ max.write .message
  | .oneOf options => "one of: " ++ Text.commaJoined options
  | .listOf options => "a comma separated list of: " ++ Text.commaJoined options
  | .dateIn format => s!"a date in the format '{format}'"
  | .timeOfDay => "a time as HH:MM"

end Expectation

/-- Why a bind target names no single field of a single document. -/
inductive TargetProblem where
  | emptySegment
  | emptyFile
  | noDocument
  | severalDocuments (files : List String)
deriving DecidableEq, Repr

namespace TargetProblem

/-- The problem in words. -/
def message : TargetProblem → String
  | .emptySegment => "field path contains an empty segment"
  | .emptyFile => "empty file reference before '#'"
  | .noDocument => "no matching document"
  | .severalDocuments files => s!"{files.length} documents match"

/-- The documents that could have been meant. -/
def candidates : TargetProblem → List String
  | .severalDocuments files => files
  | _ => []

end TargetProblem

/-- Why a file cannot be read or written. -/
inductive FileProblem where
  | missing
  | alreadyExists
  | notADirectory
  | isADirectory
  | nameTooLong
  | forbiddenName
  /-- What the file system reports beyond these, in its words: that there is no right to the file,
  no room for a text, or that what is in a file is no text. -/
  | other (message : String)
deriving DecidableEq, Repr

namespace FileProblem

/-- The problem in the words of the operating system. -/
def message : FileProblem → String
  | .missing => "No such file or directory (os error 2)"
  | .alreadyExists => "File exists (os error 17)"
  | .notADirectory => "Not a directory (os error 20)"
  | .isADirectory => "Is a directory (os error 21)"
  | .nameTooLong => "File name too long (os error 36)"
  | .forbiddenName => "file name contained an unexpected NUL byte"
  | .other message => message

end FileProblem

/-- What a control cannot do. -/
inductive ControlProblem where
  | readUnmounted (type : FieldType)
  | setUnmounted (type : FieldType)
  | noType
deriving DecidableEq, Repr

namespace ControlProblem

/-- The problem in words. -/
def message : ControlProblem → String
  | .readUnmounted type => s!"value called on a {type.name} control before it was mounted"
  | .setUnmounted type => s!"set_value called on a {type.name} control before it was mounted"
  | .noType => "cannot build a control for an invalid declaration"

end ControlProblem

/-- Why an operation was refused. -/
inductive Error where
  | malformed (error : SyntaxError)
  | unknownType (name : String)
  /-- An argument that `owner` does not admit. -/
  | unknownArgument (name owner : String)
  | badArgument (kind : ArgumentKind) (expected : Expectation)
  | unknownTemplate (name : String)
  | unnamedTemplate (name : String)
  | repeatedTemplate (name : String)
  | badTemplate (name : String) (cause : Error)
  | missingTarget
  | unresolved (target : String) (problem : TargetProblem)
  | missingSettings (path : String)
  | unreadableSettings (path : String) (cause : Yaml.Error)
  | invalidSettings (problems : List String)
  | badControl (problem : ControlProblem)
  | badFile (problem : FileProblem)
  /-- A path segment that is no index of the sequence it is applied to. -/
  | badIndex (segment path : String)
  | unreadableFrontMatter (cause : Yaml.Error)
  | unwritableFrontMatter (cause : Yaml.Error)
  | noMetadata (file : String)
  | notRewritten (file : String) (cause : Error)
  | notADocument (path root : String)
deriving DecidableEq, Repr

namespace Error

/-- What the user is told. -/
def message : Error → String
  | .malformed error => error.message
  | .unknownType name => s!"Unknown input field type '{name}'"
  | .unknownArgument name owner =>
      s!"Unknown argument '{name}' for input field type '{owner}'"
  | .badArgument kind expected =>
      s!"Invalid value for argument '{kind.name}': expected {expected.message}"
  | .unknownTemplate name => s!"Unknown template: {name}"
  | .unnamedTemplate name => s!"Invalid template '{name}': template name is empty"
  | .repeatedTemplate name => s!"Invalid template '{name}': template is defined more than once"
  | .badTemplate name cause => s!"Invalid template '{name}': {cause.message}"
  | .missingTarget => "Input field is bound but has no bind target"
  | .unresolved target problem => s!"Cannot resolve bind target '{target}': {problem.message}"
  | .missingSettings path => s!"Settings not found: {path}"
  | .unreadableSettings path cause => s!"Failed to parse settings at {path}: {cause.message}"
  | .invalidSettings problems =>
      "Failed to parse settings at settings: " ++ String.intercalate "; " problems
  | .badControl problem => s!"Internal error: {problem.message}"
  | .badFile problem => s!"IO error: {problem.message}"
  | .badIndex segment path => s!"index '{segment}' out of range in '{path}'"
  | .unreadableFrontMatter cause => s!"invalid front matter: {cause.message}"
  | .unwritableFrontMatter cause => s!"cannot serialize front matter: {cause.message}"
  | .noMetadata file => s!"no metadata for '{file}'"
  | .notRewritten file cause => s!"refusing to rewrite '{file}': {cause.message}"
  | .notADocument path root => s!"'{path}' is not a document in {root}"

/-- Whether a declaration with this error can still be shown. -/
def isRecoverable : Error → Bool
  | .unknownTemplate _ => true
  | _ => false

end Error

/-- Why an operation on live fields did not finish. -/
inductive Fault where
  | refused (error : Error)
  /-- A date was to be written in a format that asks for more than a date; the run ends. -/
  | unwritableDate (format : String)
deriving DecidableEq, Repr

end BoundFields
