import BoundFields.Calendar.TimeOfDay
import BoundFields.Declaration.Basic

/-!
# What a declaration must satisfy

Every argument is admitted by the field type, a kind that cannot be repeated occurs once, the
bounds are in order, and the default value is one that the field can hold. `Declaration.check`
reports the first of these that is broken.
-/

set_option autoImplicit false

namespace BoundFields

/-- Every argument is admitted by the type. -/
def checkAllowed (type : FieldType) (arguments : List Argument) : Except Error Unit :=
  match arguments.find? (!type.allows ·.kind) with
  | some argument => .error (.unknownArgument argument.kind.name type.name)
  | none => .ok ()

/-- No argument of a kind that cannot be repeated follows another one of its kind, given the kinds
seen before. -/
def checkRepeats (seen : List ArgumentKind) : List Argument → Except Error Unit
  | [] => .ok ()
  | argument :: more =>
      if !argument.kind.isRepeatable && seen.contains argument.kind then
        .error (.badArgument argument.kind .atMostOnce)
      else checkRepeats (argument.kind :: seen) more

namespace Declaration

/-- The least value is no greater than the greatest, for numbers and for dates. -/
def checkRanges (d : Declaration) : Except Error Unit :=
  let numbers : Except Error Unit := match d.number? .minValue, d.number? .maxValue with
    | some min, some max =>
        if max.lt min then .error (.badArgument .maxValue (.notBelow min)) else .ok ()
    | _, _ => .ok ()
  let dates : Except Error Unit := match d.givenDate? .minDate, d.givenDate? .maxDate with
    | some min, some max =>
        if min.le max then .ok () else .error (.badArgument .maxDate .notBeforeMinDate)
    | _, _ => .ok ()
  numbers.bind fun _ => dates

/-- What the default value has to be and is not. -/
def defaultProblem? (d : Declaration) (dateFormat raw : String) : Option Expectation :=
  let cs := raw.toList
  let require (fits : Bool) (expected : Expectation) : Option Expectation :=
    if fits then none else some expected
  match d.fieldType with
  | .toggle => require (raw = "true" || raw = "false") .trueOrFalse
  | .slider =>
      -- A slider has both bounds, if only by default.
      let min := (d.number? .minValue).getD Double.zero
      let max := (d.number? .maxValue).getD Double.zero
      let fits := match Double.read? (Text.trim cs) with
        | some n => min.le n && n.le max
        | none => false
      require fits (.between min max)
  | .select =>
      require (d.options.isEmpty || d.options.contains raw) (.oneOf d.options)
  | .multiSelect =>
      require (d.options.isEmpty || (Text.commaItems raw).all d.options.contains)
        (.listOf d.options)
  | .date | .datePicker =>
      require (Date.read? dateFormat (Text.trim cs)).isSome (.dateIn dateFormat)
  | .time => require (TimeOfDay.read? (Text.trim cs)).isSome .timeOfDay
  | .text | .textArea | .invalid => none

/-- The default value, if one is given, is one that the field can hold. -/
def checkDefault (d : Declaration) (dateFormat : String) : Except Error Unit :=
  match (d.givenText? .defaultValue).bind (d.defaultProblem? dateFormat) with
  | some expected => .error (.badArgument .defaultValue expected)
  | none => .ok ()

/-- All that a declaration must satisfy beyond the form of each argument. -/
def check (d : Declaration) (dateFormat : String) : Except Error Unit := do
  checkAllowed d.fieldType d.arguments
  checkRepeats [] d.arguments
  d.checkRanges
  d.checkDefault dateFormat

end Declaration

end BoundFields
