import BoundFields.Declaration.Raw
import BoundFields.Declaration.Check
import BoundFields.Declaration.Template

/-!
# Reading declarations

A `Parser` reads declaration text, or a draft made in some other way, with a table of templates
and a date format. What is given literally wins over the template, and the template over the
defaults of the field type. Every declaration it returns satisfies `Declaration.check`.
-/

set_option autoImplicit false

namespace BoundFields

/-- The date format where no other is set. -/
def defaultDateFormat : String := "%Y-%m-%d"

/-- A declaration with the problems that did not keep it from being read. -/
structure ParseOutcome where
  declaration : Declaration
  warnings : List Error
deriving DecidableEq, Repr

/-- A declaration in the making; what is missing comes from a template or the defaults. -/
structure Draft where
  fieldType : Option FieldType := none
  arguments : List (String × Option String) := []
  isBound : Option Bool := none
  target : Option String := none
deriving DecidableEq, Repr

/-- The draft bound to a target. -/
def Draft.bindTo (draft : Draft) (target : String) : Draft :=
  { draft with target := some target, isBound := some true }

/-- What a declaration gives itself, before its template comes in. -/
structure Literal where
  fieldType : Option FieldType
  arguments : List Argument
  isBound : Option Bool
  target : Option String
deriving DecidableEq, Repr

/-- What declarations are read with: the format of their dates and the templates that they can name.
-/
structure Parser where
  dateFormat : String := defaultDateFormat
  templates : TemplateTable := {}
deriving DecidableEq, Repr

/-- The field type with this keyword. -/
def FieldType.ofText (text : String) : Except Error FieldType :=
  match FieldType.ofText? text with
  | some type => .ok type
  | none => .error (.unknownType (Text.trimmed text))

/-- What an error calls the thing that an unknown argument was given to. -/
def ownerLabel : Option FieldType → Option String → String
  | some type, _ => type.name
  | none, some template => "template " ++ template
  | none, none => "unknown"

/-- One argument from its name and the text of its value. -/
def readNamedArgument (dateFormat owner name : String) (raw : Option String) :
    Except Error Argument :=
  match ArgumentKind.ofName? name with
  | some kind => Argument.ofText kind raw dateFormat
  | none => .error (.unknownArgument name owner)

/-- Arguments from their names and the texts of their values; the first bad one is reported. -/
def readNamedArguments (dateFormat owner : String) (arguments : List (String × Option String)) :
    Except Error (List Argument) :=
  arguments.mapM fun (name, raw) => readNamedArgument dateFormat owner name raw

namespace RawDeclaration

/-- The text of a declaration taken apart, its flaws being errors of the declaration. -/
def read (text : String) : Except Error RawDeclaration :=
  (RawDeclaration.ofText text).mapError .malformed

/-- The type of a declaration, if one is written. -/
def fieldType (raw : RawDeclaration) : Except Error (Option FieldType) :=
  match raw.body.type with
  | some (name, _) => (FieldType.ofText name).map some
  | none => .ok none

/-- The arguments by name. -/
def namedArguments (raw : RawDeclaration) : List (String × Option String) :=
  raw.body.arguments.map fun a => (a.name, a.value)

end RawDeclaration

/-- A template read from its declaration text. It may lack the type, and may not use another
template. -/
def Template.ofText (dateFormat name text : String) : Except Error Template := do
  let raw ← RawDeclaration.read text
  if raw.template.isSome then
    throw (.malformed ⟨.templateInTemplate, none, none⟩)
  let fieldType ← raw.fieldType
  let arguments ←
    readNamedArguments dateFormat (ownerLabel fieldType none) raw.namedArguments
  if let some type := fieldType then
    checkAllowed type arguments
  return { name, fieldType, arguments, target := raw.body.target, source := text }

/-- One template of the settings, given the names that are taken. -/
def Template.ofSource (dateFormat : String) (taken : List String) (source : TemplateSource) :
    Except Error Template :=
  let name := Text.trimmed source.name
  if name.isEmpty then .error (.unnamedTemplate source.name)
  else if taken.contains name then .error (.repeatedTemplate name)
  else (Template.ofText dateFormat name source.declaration).mapError (.badTemplate name)

/-- The templates of the settings that can be read, behind those read before, and the errors of
the others. -/
def readTemplates (dateFormat : String) (done : List Template) :
    List TemplateSource → List Template × List Error
  | [] => (done, [])
  | source :: more =>
      match Template.ofSource dateFormat (done.map (·.name)) source with
      | .ok template => readTemplates dateFormat (done ++ [template]) more
      | .error error =>
          let (templates, errors) := readTemplates dateFormat done more
          (templates, error :: errors)

namespace Parser

/-- The declaration that the literal parts and the template named by `templateName` make. -/
def build (p : Parser) (literal : Literal) (templateName : Option String) :
    Except Error ParseOutcome := do
  let template := templateName.bind p.templates.get?
  let warnings := match templateName, template with
    | some name, none => [Error.unknownTemplate name]
    | _, _ => []
  -- An unknown template is a warning as long as the declaration gives its type itself.
  let fieldType ← match literal.fieldType.or (template.bind (·.fieldType)) with
    | some type => Except.ok type
    | none => Except.error <| match templateName, template with
        | some name, none => Error.unknownTemplate name
        | _, _ => Error.malformed ⟨.missingType, none, none⟩
  let arguments := match template with
    | some template => template.merge literal.arguments
    | none => literal.arguments
  let target :=
    (literal.target.or (template.bind (·.target))).filter (!Text.isBlankString ·)
  let isBound := target.isSome || literal.isBound.getD false
  if isBound && target.isNone then
    throw .missingTarget
  let declaration : Declaration := { fieldType, arguments, isBound, target, templateName }
  declaration.check p.dateFormat
  return { declaration, warnings }

/-- The declaration that a text stands for, with the problems that did not matter. -/
def readOutcome (p : Parser) (text : String) : Except Error ParseOutcome := do
  let raw ← RawDeclaration.read text
  let fieldType ← raw.fieldType
  let arguments ←
    readNamedArguments p.dateFormat (ownerLabel fieldType raw.template) raw.namedArguments
  p.build { fieldType, arguments, isBound := none, target := raw.body.target } raw.template

/-- The declaration that a text stands for. -/
def read (p : Parser) (text : String) : Except Error Declaration :=
  (p.readOutcome text).map (·.declaration)

/-- The declaration that a draft stands for; `override` replaces its arguments. -/
def ofDraft (p : Parser) (draft : Draft) (override : Option (List (String × Option String)))
    (templateName : Option String) : Except Error ParseOutcome := do
  let fieldType := draft.fieldType.filter (· ≠ .invalid)
  let arguments ← readNamedArguments p.dateFormat (ownerLabel fieldType templateName)
    (override.getD draft.arguments)
  p.build { fieldType, arguments, isBound := draft.isBound, target := draft.target } templateName

/-- The parser with the templates of the settings in place of its own, and the errors of those
that cannot be read. -/
def loadTemplates (p : Parser) (sources : List TemplateSource) : Parser × List Error :=
  let (templates, errors) := readTemplates p.dateFormat [] sources
  ({ p with templates := TemplateTable.ofList templates }, errors)

end Parser

end BoundFields
