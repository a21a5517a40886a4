import BoundFields.Declaration.Parser
import BoundFields.Yaml.Writer

/-!
# Settings

The date format, the mode for developers, and the named templates.
-/

set_option autoImplicit false

namespace BoundFields

/-- What the user can choose: the format of dates, a mode for developers, and templates. -/
structure Settings where
  dateFormat : String := defaultDateFormat
  devMode : Bool := false
  templates : List TemplateSource := []
deriving DecidableEq, Repr

namespace Settings

/-- The settings as metadata; what is left out has its default. -/
def toValue (s : Settings) : Value :=
  let template (t : TemplateSource) : Value :=
    .mapping [(.string "name", .string t.name), (.string "declaration", .string t.declaration)]
  .mapping <|
    [(.string "date_format", .string s.dateFormat)]
      ++ (if s.devMode then [(.string "dev_mode", .bool true)] else [])
      ++ (if s.templates.isEmpty then []
          else [(.string "input_templates", .sequence (s.templates.map template))])

/-- The parser that the settings ask for, and the errors of the templates that cannot be read. -/
def parser (s : Settings) : Parser × List Error :=
  ({ dateFormat := s.dateFormat } : Parser).loadTemplates s.templates

end Settings

end BoundFields
