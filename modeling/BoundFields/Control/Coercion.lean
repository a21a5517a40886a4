import BoundFields.Ascending
import BoundFields.Number.Reader
import BoundFields.Calendar.TimeOfDay
import BoundFields.Yaml.Writer

/-!
# What a value can be taken for

Metadata is written by hand, so a control takes a text for the truth value, the number, the date
or the time of day that it spells, and anything at all for a set of texts.
-/

set_option autoImplicit false

namespace BoundFields.Value

/-- The truth value that a value is or spells. -/
def asBool? : Value → Option Bool
  | .bool b => some b
  | .string s =>
      match Text.trimmed s with
      | "true" => some true
      | "false" => some false
      | _ => none
  | _ => none

/-- The number that a value is or spells; a text spells finite numbers only. -/
def asNumber? : Value → Option Double
  | .number n => some n.toDouble
  | .string s => Double.readFinite? (Text.trim s.toList)
  | _ => none

/-- The short texts of the items of a sequence, or of a single value; null has none. -/
def itemTexts : Value → List String
  | .null => []
  | .sequence items => items.map display
  | v => [v.display]

/-- The set of texts that a value is taken for. -/
def asTextSet (v : Value) : List String := Ascending.ofList v.itemTexts

/-- A value without its tags. -/
def untagged : Value → Value
  | .tagged _ v => v.untagged
  | v => v

/-- The date that a text spells in a format. -/
def asDate? (format : String) (v : Value) : Option Date :=
  v.untagged.text?.bind fun s => Date.read? format (Text.trim s.toList)

/-- The time of day that a text spells. -/
def asTime? (v : Value) : Option TimeOfDay :=
  v.untagged.text?.bind fun s => TimeOfDay.read? (Text.trim s.toList)

end BoundFields.Value
