import BoundFields.Text.Blank

/-!
# Field types and argument kinds

The nine kinds of input fields, the twelve kinds of arguments, the form of the value that each
argument takes, and which arguments a field type admits.
-/

set_option autoImplicit false

namespace BoundFields

/-- The kinds of arguments of a declaration. -/
inductive ArgumentKind where
  | cssClass
  | addLabels
  | minValue
  | maxValue
  | step
  | option
  | title
  | alignRight
  | placeholder
  | defaultValue
  | minDate
  | maxDate
deriving DecidableEq, Repr

/-- The form of an argument's value. -/
inductive ValueShape where
  /-- No value at all. -/
  | flag
  | number
  | positiveNumber
  | text
  | nonEmptyText
  | className
  /-- A date in the format in use. -/
  | date
deriving DecidableEq, Repr

namespace ArgumentKind

/-- Every kind, in the order of the table. -/
def all : List ArgumentKind :=
  [.cssClass, .addLabels, .minValue, .maxValue, .step, .option, .title, .alignRight, .placeholder,
    .defaultValue, .minDate, .maxDate]

/-- The name in declaration text. -/
def name : ArgumentKind → String
  | .cssClass => "class"
  | .addLabels => "addLabels"
  | .minValue => "minValue"
  | .maxValue => "maxValue"
  | .step => "step"
  | .option => "option"
  | .title => "title"
  | .alignRight => "alignRight"
  | .placeholder => "placeholder"
  | .defaultValue => "defaultValue"
  | .minDate => "minDate"
  | .maxDate => "maxDate"

/-- The kind with exactly this name. -/
def ofName? (name : String) : Option ArgumentKind := all.find? (·.name = name)

theorem ofName?_name (kind : ArgumentKind) : ofName? kind.name = some kind := by
  cases kind <;> decide

/-- The form that the value of an argument has. -/
def shape : ArgumentKind → ValueShape
  | .addLabels | .alignRight => .flag
  | .minValue | .maxValue => .number
  | .step => .positiveNumber
  | .option | .title => .nonEmptyText
  | .placeholder | .defaultValue => .text
  | .cssClass => .className
  | .minDate | .maxDate => .date

/-- Whether a declaration may have several arguments of the kind. -/
def isRepeatable : ArgumentKind → Bool
  | .cssClass | .option => true
  | _ => false

end ArgumentKind

/-- The kinds of input fields. -/
inductive FieldType where
  | toggle
  | slider
  | text
  | textArea
  | select
  | multiSelect
  | date
  | time
  | datePicker
  /-- Stands for the lack of a type; no declaration that was read has it. -/
  | invalid
deriving DecidableEq, Repr, Inhabited

namespace FieldType

/-- Every type that a declaration can have, in the order of the table. -/
def all : List FieldType :=
  [.toggle, .slider, .text, .textArea, .select, .multiSelect, .date, .time, .datePicker]

theorem mem_all_iff {type : FieldType} : type ∈ all ↔ type ≠ .invalid := by
  cases type <;> decide

/-- The keyword in declaration text. -/
def name : FieldType → String
  | .toggle => "toggle"
  | .slider => "slider"
  | .text => "text"
  | .textArea => "text_area"
  | .select => "select"
  | .multiSelect => "multi_select"
  | .date => "date"
  | .time => "time"
  | .datePicker => "date_picker"
  | .invalid => "invalid"

/-- The type with this keyword, in any case and with any blanks around it. -/
def ofText? (text : String) : Option FieldType :=
  let keyword := String.ofList ((Text.trim text.toList).map Char.toLower)
  all.find? (·.name = keyword)

/-- The arguments that every field type admits. -/
def commonArguments : List ArgumentKind := [.cssClass, .title, .alignRight, .defaultValue]

/-- The arguments that a field type admits beyond the common ones. -/
def ownArguments : FieldType → List ArgumentKind
  | .slider => [.addLabels, .minValue, .maxValue, .step]
  | .text | .textArea => [.placeholder]
  | .select | .multiSelect => [.option]
  | .date | .datePicker => [.minDate, .maxDate]
  | .toggle | .time | .invalid => []

/-- The arguments that a field type admits. -/
def allowedArguments (type : FieldType) : List ArgumentKind :=
  if type = .invalid then [] else commonArguments ++ type.ownArguments

/-- Whether a field type admits arguments of a kind. -/
def allows (type : FieldType) (kind : ArgumentKind) : Bool := type.allowedArguments.contains kind

end FieldType

end BoundFields
