import BoundFields.Calendar.Writer
import BoundFields.Control.Equality
import BoundFields.Declaration.Basic

/-!
# Controls

A control is what an input field shows. What it does is told by its role; whatever value it is
given, it stores one of the kind that the role admits (`Role.accept`), and it can be read and set
only once it is mounted. A date control writes dates in its format, which can end the run.
-/

set_option autoImplicit false

namespace BoundFields

/-- What a control does. The last part of each role is the value that it shows if there is none. -/
inductive Role where
  | toggle (default : Bool)
  | slider (min max step default : Double)
  | text (placeholder : Option String) (default : String)
  | select (options : List String) (default : String)
  | multiSelect (options default : List String)
  /-- A date in a format; the default is already written in it. -/
  | date (format : String) (min max : Option Date) (default : Option String)
  | time (default : TimeOfDay)
deriving DecidableEq, Repr

/-- What a control looks like. -/
structure View where
  type : FieldType
  label : Option String
  classes : List String
  alignRight : Bool
  options : List String
  /-- The value as text. -/
  display : String
deriving DecidableEq, Repr

/-- The value of a number; whole numbers become integers, so that they are written without a
fraction. -/
def Value.ofDouble (d : Double) : Value :=
  match d.toInt? with
  | some n => if n.natAbs < twoTo 63 then .number (.integer n) else .number (.float d)
  | none => .number (.float d)

/-- The sequence of some texts. -/
def Value.ofTexts (items : List String) : Value := .sequence (items.map .string)

/-- A date in the format in use. -/
def writeDate (format : String) (d : Date) : Except Fault String :=
  match d.write? format with
  | some text => .ok text
  | none => .error (.unwritableDate format)

namespace Role

/-- The rule by which the control's values are compared. -/
def rule : Role → EqualityRule
  | .toggle _ => .bool
  | .slider .. => .number
  | .text .. | .select .. => .text
  | .multiSelect .. => .set
  | .date format .. => .date format
  | .time _ => .time

/-- The value that is shown if there is none. -/
def default : Role → Value
  | .toggle b => .bool b
  | .slider _ _ _ d => .ofDouble d
  | .text _ s | .select _ s => .string s
  | .multiSelect _ items => .ofTexts items
  | .date _ _ _ none => .null
  | .date _ _ _ (some s) => .string s
  | .time t => .string t.write

/-- The value that the control stores when it is given `v`. -/
def accept (role : Role) (v : Value) : Except Fault Value :=
  match role with
  | .toggle b => .ok (.bool (v.asBool?.getD b))
  | .slider min max _ d =>
      .ok (.ofDouble ((v.asNumber?.map fun n => n.clamp min max).getD d))
  | .text .. | .select .. => .ok (if v = .null then role.default else .string v.display)
  | .multiSelect .. =>
      match v with
      | .null => .ok role.default
      | .sequence items => .ok (.ofTexts (items.map Value.display))
      | v => .ok (.ofTexts v.asTextSet)
  | .date format .. =>
      match v.asDate? format with
      | some d => (writeDate format d).map .string
      | none => .ok role.default
  | .time t => .ok (.string (v.asTime?.getD t).write)

/-- The choices that the control offers. -/
def options : Role → List String
  | .select options _ | .multiSelect options _ => options
  | _ => []

/-- The text that the control shows for its value. -/
def display (role : Role) (v : Value) : String :=
  match role with
  | .text (some placeholder) _ => if v.display.isEmpty then placeholder else v.display
  | .multiSelect .. => Text.commaJoined v.asTextSet
  | _ => v.display

/-- The role of a field with this declaration. -/
def ofDeclaration (d : Declaration) (dateFormat : String) : Except Fault Role :=
  let given := d.givenText? .defaultValue
  match d.fieldType with
  | .toggle => .ok (.toggle ((given.bind fun raw => (Value.string raw).asBool?).getD false))
  | .slider =>
      let min := (d.number? .minValue).getD Double.zero
      let max := (d.number? .maxValue).getD (Double.ofInt 100)
      let step := (d.number? .step).getD (Double.ofInt 1)
      let default := (given.bind fun raw => Double.read? (Text.trim raw.toList)).map
        fun n => n.clamp min max
      .ok (.slider min max step (default.getD min))
  | .text | .textArea => .ok (.text (d.givenText? .placeholder) (given.getD ""))
  | .select => .ok (.select d.options ((given.or d.options.head?).getD ""))
  | .multiSelect => .ok (.multiSelect d.options ((given.map Text.commaItems).getD []))
  | .date | .datePicker => do
      let default ← (given.bind fun raw => Date.read? dateFormat (Text.trim raw.toList)).mapM
        (writeDate dateFormat)
      return .date dateFormat (d.givenDate? .minDate) (d.givenDate? .maxDate) default
  | .time =>
      .ok (.time ((given.bind fun raw => TimeOfDay.read? (Text.trim raw.toList)).getD ⟨0, 0⟩))
  | .invalid => .error (.refused (.badControl .noType))

end Role

/-- A control with its value. -/
structure Control where
  type : FieldType
  title : Option String
  classes : List String
  alignRight : Bool
  role : Role
  isMounted : Bool
  current : Value
deriving DecidableEq, Repr

namespace Control

/-- The control of a field with this declaration, not mounted yet. -/
def ofDeclaration (d : Declaration) (dateFormat : String) : Except Fault Control := do
  let role ← Role.ofDeclaration d dateFormat
  return { type := d.fieldType, title := d.givenText? .title, classes := d.givenTexts .cssClass,
           alignRight := (d.argument? .alignRight).isSome, role, isMounted := false,
           current := role.default }

/-- The control once it is shown; before that it has no value to give. -/
def mount (c : Control) : Control := { c with isMounted := true }

/-- What the control looks like. -/
def view (c : Control) : View :=
  { type := c.type, label := c.title, classes := c.classes, alignRight := c.alignRight,
    options := c.role.options, display := c.role.display c.current }

/-- The value of a mounted control. -/
def value (c : Control) : Except Error Value :=
  if c.isMounted then .ok c.current else .error (.badControl (.readUnmounted c.type))

/-- Gives a mounted control another value. -/
def set (c : Control) (v : Value) : Except Fault Control := do
  let stored ← c.role.accept v
  if c.isMounted then return { c with current := stored }
  else throw (.refused (.badControl (.setUnmounted c.type)))

end Control

end BoundFields
