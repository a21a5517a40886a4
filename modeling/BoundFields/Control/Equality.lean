import BoundFields.Control.Coercion

/-!
# When two values are equal

Each kind of control has a rule of its own for when two values show the same. The synchronizer
uses the same rule, so that it passes over what a control would not notice.
-/

set_option autoImplicit false

namespace BoundFields

/-- How two values are compared. -/
inductive EqualityRule where
  /-- As truth values. -/
  | bool
  | number
  /-- By the short text; null is the empty text. -/
  | text
  /-- As sets of texts. -/
  | set
  /-- As dates in a format. -/
  | date (format : String)
  /-- As times of day. -/
  | time
deriving DecidableEq, Repr

namespace EqualityRule

/-- Compares what two values are taken for, and the values themselves with `otherwise` unless
both can be taken so. -/
def compare {α : Type} (as? : Value → Option α) (eq : α → α → Bool)
    (otherwise : Value → Value → Bool) (a b : Value) : Bool :=
  match as? a, as? b with
  | some x, some y => eq x y
  | _, _ => otherwise a b

/-- Whether two values have the same short text. -/
def sameText (a b : Value) : Bool := a.display == b.display

/-- Whether two values are equal. -/
def eq : EqualityRule → Value → Value → Bool
  | .bool => compare Value.asBool? (· == ·) Value.same
  | .number => compare Value.asNumber? Double.same Value.same
  | .text => sameText
  | .set => fun a b => a.asTextSet == b.asTextSet
  | .date format => compare (Value.asDate? format) (fun x y => decide (x = y)) sameText
  | .time => compare Value.asTime? (fun x y => decide (x = y)) sameText

end EqualityRule

end BoundFields
