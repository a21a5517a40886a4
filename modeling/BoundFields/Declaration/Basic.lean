import BoundFields.Declaration.Argument

/-!
# Declarations

An input field as its declaration describes it: type, arguments, and the metadata field that it is
bound to. `Declaration.text` is the declaration text, with the arguments in order and no blanks
but the one behind each comma between them.
-/

set_option autoImplicit false

namespace BoundFields

/-- What a field type takes for an argument that is not given. -/
def FieldType.defaultArgument? : FieldType → ArgumentKind → Option ArgumentValue
  | .slider, .minValue => some (.number Double.zero)
  | .slider, .maxValue => some (.number (Double.ofInt 100))
  | .slider, .step => some (.number (Double.ofInt 1))
  | _, _ => none

/-- An input field declaration. -/
structure Declaration where
  fieldType : FieldType
  arguments : List Argument
  isBound : Bool
  target : Option String
  templateName : Option String
deriving DecidableEq, Repr

namespace Declaration

/-- The first argument of a kind. -/
def argument? (d : Declaration) (kind : ArgumentKind) : Option Argument :=
  d.arguments.find? (·.kind = kind)

/-- The arguments of a kind, in order. -/
def argumentsOf (d : Declaration) (kind : ArgumentKind) : List Argument :=
  d.arguments.filter (·.kind = kind)

/-- The value of the first argument of a kind, or else the default of the field type. -/
def effective? (d : Declaration) (kind : ArgumentKind) : Option ArgumentValue :=
  ((d.argument? kind).map (·.value)).or (d.fieldType.defaultArgument? kind)

/-- The number that is in effect for a kind of argument. -/
def number? (d : Declaration) (kind : ArgumentKind) : Option Double :=
  (d.effective? kind).bind (·.number?)

/-- The text given for a kind of argument. -/
def givenText? (d : Declaration) (kind : ArgumentKind) : Option String :=
  (d.argument? kind).bind (·.value.text?)

/-- The date given for a kind of argument. -/
def givenDate? (d : Declaration) (kind : ArgumentKind) : Option Date :=
  (d.argument? kind).bind (·.value.date?)

/-- The texts given for a kind of argument that can be repeated, in order. -/
def givenTexts (d : Declaration) (kind : ArgumentKind) : List String :=
  (d.argumentsOf kind).filterMap (·.value.text?)

/-- The choices that the declaration offers. -/
def options (d : Declaration) : List String := d.givenTexts .option

/-- The declaration text. -/
def text (d : Declaration) : String :=
  let template := match d.templateName with
    | some name => "[" ++ name ++ "]"
    | none => ""
  let arguments :=
    if d.arguments.isEmpty then ""
    else "(" ++ Text.commaJoined (d.arguments.map (·.text)) ++ ")"
  let target := match d.target with
    | some target => ":" ++ target
    | none => ""
  "INPUT" ++ template ++ "[" ++ d.fieldType.name ++ arguments ++ target ++ "]"

end Declaration

end BoundFields
