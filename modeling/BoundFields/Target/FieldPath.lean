import BoundFields.Error
import BoundFields.Text.Pieces

/-!
# Field paths

A field path names a place within the metadata of a document: the keys, or the indices of
sequences, that lead there, written with a point between them.
-/

set_option autoImplicit false

namespace BoundFields

/-- A place within metadata. -/
structure FieldPath where
  segments : List String
deriving DecidableEq, Repr, Inhabited

namespace FieldPath

/-- The text with a point between the segments. -/
def text (path : FieldPath) : String := String.intercalate "." path.segments

/-- The path that a text stands for; blanks around a segment do not count. -/
def ofText (raw : String) : Except Error FieldPath :=
  let segments := (raw.toList.splitOn '.').map fun piece => String.ofList (Text.trim piece)
  if segments.any (·.isEmpty) then .error (.unresolved raw .emptySegment) else .ok ⟨segments⟩

end FieldPath

end BoundFields
