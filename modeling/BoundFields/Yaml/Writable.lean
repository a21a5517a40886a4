import BoundFields.Yaml.Error
import BoundFields.Yaml.Value

/-!
# What can be written

Not every value has a text. A tag cannot stand directly under another one. And a mapping of a
single entry is not told from a tagged value before its key has been seen: if its key is again a
mapping of a single entry or a tagged value, its start gets lost and its end remains. Its key and
its value then stand where the mapping should, and its end ends the mapping around it, if that one
is waiting for a key. `Value.check` goes through a value in the order of writing and finds the
first fault.
-/

set_option autoImplicit false

namespace BoundFields.Yaml

/-- What an open collection is waiting for. -/
inductive Awaited where
  | item
  | key
  | value
deriving DecidableEq, Repr

/-- The open collections, innermost first. -/
abbrev Levels := List Awaited

namespace Levels

/-- The levels behind a whole node. -/
def afterNode : Levels → Levels
  | .key :: levels => .value :: levels
  | .value :: levels => .key :: levels
  | levels => levels

/-- The levels behind the end of a mapping, which is a fault where no mapping can end. -/
def endMapping : Levels → Except Error Levels
  | [] => .error .endOutsideDocument
  | .key :: levels => .ok (afterNode levels)
  | .item :: _ | .value :: _ => .error .endOutsideMapping

end Levels

/-- Whether a mapping with these entries has no start of its own: its only key is a mapping of a
single entry or a tagged value. -/
def hidesStart : List (Value × Value) → Bool
  | [(.mapping [_], _)] | [(.tagged .., _)] => true
  | _ => false

mutual

/-- The levels behind a value. -/
def putValue (underTag : Bool) (levels : Levels) : Value → Except Error Levels
  | .tagged _ v => if underTag then .error .nestedTag else putValue true levels v
  | .sequence items => do
      putItems (.item :: levels) items
      return levels.afterNode
  | .mapping entries => do
      -- A tag makes it known that a mapping follows, so its start is not lost.
      let inner := if hidesStart entries && !underTag then levels else .key :: levels
      (← putEntries inner entries).endMapping
  | .null | .bool _ | .number _ | .string _ => .ok levels.afterNode

/-- Checks the items of a sequence. -/
def putItems (levels : Levels) : List Value → Except Error Unit
  | [] => .ok ()
  | v :: more => do
      -- An item leaves the sequence open, or its end is a fault.
      let _ ← putValue false levels v
      putItems levels more

/-- The levels behind the entries of a mapping. -/
def putEntries (levels : Levels) : List (Value × Value) → Except Error Levels
  | [] => .ok levels
  | (k, v) :: more => do
      let levels ← putValue false levels k
      let levels ← putValue false levels v
      putEntries levels more

end

end BoundFields.Yaml

namespace BoundFields

/-- Why a value has no text, if it has none. -/
def Value.check (v : Value) : Except Yaml.Error Unit := do
  let _ ← Yaml.putValue false [] v

end BoundFields
