import BoundFields.Calendar.Pattern
import BoundFields.Settings.Basic

/-!
# Validation of settings

The date format must be usable, and every template must have a name of its own. The declarations
of templates are looked at when they are read.
-/

set_option autoImplicit false

namespace BoundFields

/-- What is wrong with some settings. -/
inductive SettingsProblem where
  | unusableDateFormat (format : String)
  | unnamedTemplate (declaration : String)
  | repeatedTemplate (name : String)
deriving DecidableEq, Repr

namespace SettingsProblem

/-- The rule that is broken. -/
def rule : SettingsProblem → String
  | .unusableDateFormat _ => "invalid-date-format"
  | .unnamedTemplate _ => "empty-template-name"
  | .repeatedTemplate _ => "duplicate-template"

/-- The problem in words. -/
def message : SettingsProblem → String
  | .unusableDateFormat format => s!"Invalid date format '{format}'"
  | .unnamedTemplate declaration =>
      s!"Template with declaration '{declaration}' has an empty name"
  | .repeatedTemplate name => s!"Template '{name}' is defined more than once"

end SettingsProblem

namespace Settings

/-- The problems with the names of templates, given the names that are taken. -/
def nameProblems (taken : List String) : List TemplateSource → List SettingsProblem
  | [] => []
  | t :: more =>
      let name := Text.trimmed t.name
      if name.isEmpty then .unnamedTemplate t.declaration :: nameProblems taken more
      else if taken.contains name then .repeatedTemplate name :: nameProblems taken more
      else nameProblems (name :: taken) more

/-- All problems with some settings, in order. -/
def problems (s : Settings) : List SettingsProblem :=
  (if Pattern.isUsable s.dateFormat then [] else [.unusableDateFormat s.dateFormat])
    ++ nameProblems [] s.templates

/-- Refuses settings with a problem. -/
def validate (s : Settings) : Except Error Unit :=
  if s.problems.isEmpty then .ok ()
  else .error (.invalidSettings (s.problems.map (·.message)))

end Settings

end BoundFields
