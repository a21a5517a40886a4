import BoundFields.Error
import BoundFields.Number.Reader
import BoundFields.Calendar.Reader
import BoundFields.Declaration.Quoted

/-!
# Arguments

The value of an argument is read from its text by the form that its kind asks for. An argument
keeps its text, and is printed with it.
-/

set_option autoImplicit false

namespace BoundFields

/-- The value of an argument. -/
inductive ArgumentValue where
  | flag
  | number (n : Double)
  | text (s : String)
  | date (d : Date)
deriving DecidableEq, Repr

namespace ArgumentValue

/-- The number, if the value is one. -/
def number? : ArgumentValue → Option Double
  | .number n => some n
  | _ => none

/-- The text, if the value is one. -/
def text? : ArgumentValue → Option String
  | .text s => some s
  | _ => none

/-- The date, if the value is one. -/
def date? : ArgumentValue → Option Date
  | .date d => some d
  | _ => none

end ArgumentValue

/-- An argument with its value and the text, without quotes, that it was read from. -/
structure Argument where
  kind : ArgumentKind
  value : ArgumentValue
  raw : Option String
deriving DecidableEq, Repr

/-- A letter, a digit, a hyphen or an underscore, all of them ASCII. -/
def isClassChar (c : Char) : Bool := c.isAlphanum || c = '-' || c = '_'

/-- The value that a text stands for where a value of this form is expected. -/
def ValueShape.read? (shape : ValueShape) (dateFormat : String) :
    Option String → Option ArgumentValue
  | none => if shape = .flag then some .flag else none
  | some raw =>
      let cs := raw.toList
      match shape with
      | .flag => none
      | .number => (Double.readFinite? (Text.trim cs)).map .number
      | .positiveNumber =>
          ((Double.readFinite? (Text.trim cs)).filter (Double.zero.lt ·)).map .number
      | .text => some (.text raw)
      | .nonEmptyText => if Text.isBlankText cs then none else some (.text raw)
      | .className => if !cs.isEmpty && cs.all isClassChar then some (.text raw) else none
      | .date => (Date.read? dateFormat (Text.trim cs)).map .date

namespace Argument

/-- The argument of a kind with the given text as its value, absent for an argument without
parentheses. -/
def ofText (kind : ArgumentKind) (raw : Option String) (dateFormat : String) :
    Except Error Argument :=
  match kind.shape.read? dateFormat raw with
  | some value => .ok ⟨kind, value, raw⟩
  | none => .error (.badArgument kind (.ofShape kind.shape dateFormat))

/-- The name, with the value between parentheses if there is one. -/
def text (a : Argument) : String :=
  match a.raw with
  | none => a.kind.name
  | some raw => a.kind.name ++ "(" ++ quoteValue raw ++ ")"

end Argument

end BoundFields
