import BoundFields.Keyed
import BoundFields.Metadata.Access
import BoundFields.Target.Basic

/-!
# The metadata store

The store holds the metadata of every document. Writing is done at once, but a change is reported
only when the queue of changes is drained; each change carries the whole metadata of its document.
-/

set_option autoImplicit false

namespace BoundFields

/-- The metadata of a document after a change. -/
structure Change where
  file : FileRef
  snapshot : Value
deriving DecidableEq, Repr, Inhabited

/-- The metadata of every document, and the changes that have not been reported. -/
structure Store where
  documents : Keyed FileRef Value := {}
  pending : List Change := []
deriving DecidableEq, Repr

namespace Store

/-- The store with other metadata for a document, which nobody is told about. -/
def insert (s : Store) (file : FileRef) (metadata : Value) : Store :=
  { s with documents := s.documents.put file metadata }

/-- The store with other metadata for a document. -/
def replace (s : Store) (file : FileRef) (metadata : Value) : Store :=
  { s.insert file metadata with pending := s.pending ++ [⟨file, metadata⟩] }

/-- The metadata of a document. -/
def snapshot? (s : Store) (file : FileRef) : Option Value := s.documents.get? file

/-- Whether the store has metadata for a document. -/
def contains (s : Store) (file : FileRef) : Bool := s.documents.contains file

/-- The value at a target. -/
def read? (s : Store) (target : Target) : Option Value :=
  (s.snapshot? target.file).bind (·.read? target.path)

/-- Writes a value at a target. A document that the store does not know yet is null before. -/
def write (s : Store) (target : Target) (v : Value) : Except Error Unit × Store :=
  let root := (s.snapshot? target.file).getD .null
  match root.writeAt target.path v with
  | (.ok _, root) => (.ok (), s.replace target.file root)
  | (.error error, root) => (.error error, s.insert target.file root)

/-- Takes all changes out of the queue, the oldest first. -/
def drain (s : Store) : List Change × Store := (s.pending, { s with pending := [] })

/-- The documents that the store knows, in the order of their paths. -/
def files (s : Store) : List FileRef := Ascending.ofList s.documents.keys

end Store

end BoundFields
