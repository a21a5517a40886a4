import BoundFields.Number.Reader
import BoundFields.Yaml.Value
import BoundFields.Target.FieldPath

/-!
# Reading and writing along a path

A segment of a path is a key of a mapping or an index of a sequence. Writing makes the mappings
that are missing on the way, also in place of a value that has no parts; a sequence keeps its
length. `Value.put` goes down the path and rebuilds the value on the way back, so that what a
walk that got stuck leaves behind can be seen.
-/

set_option autoImplicit false

namespace BoundFields

namespace Value

/-- The part of a value that one segment of a path leads to. -/
def child? (segment : String) : Value → Option Value
  | .mapping entries => lookup? (.string segment) entries
  | .sequence items => (readIndex? segment.toList).bind fun i => items[i]?
  | _ => none

/-- The part of a value that the segments lead to. -/
def follow? : List String → Value → Option Value
  | [], v => some v
  | segment :: more, v => (v.child? segment).bind (follow? more)

/-- The part of a value at a path. -/
def read? (root : Value) (path : FieldPath) : Option Value := follow? path.segments root

/-- The value with `new` where the segments lead to; and the segment, if any, that was no index
of the sequence that it was applied to. -/
def put (new : Value) : List String → Value → Value × Option String
  | [], _ => (new, none)
  | segment :: more, .sequence items =>
      match (readIndex? segment.toList).bind fun i => items[i]?.map (i, ·) with
      | some (i, item) =>
          let (item, stuck) := put new more item
          (.sequence (items.set i item), stuck)
      | none => (.sequence items, some segment)
  | segment :: more, .mapping entries =>
      let (child, stuck) := put new more ((lookup? (.string segment) entries).getD .null)
      (.mapping (putEntry (.string segment) child entries), stuck)
  | segment :: more, _ =>
      let (child, stuck) := put new more .null
      (.mapping [(.string segment, child)], stuck)

/-- The value with `new` at a path, and whether that could be done. -/
def writeAt (root : Value) (path : FieldPath) (new : Value) : Except Error Unit × Value :=
  match put new path.segments root with
  | (root, none) => (.ok (), root)
  | (root, some segment) => (.error (.badIndex segment path.text), root)

end Value

end BoundFields
