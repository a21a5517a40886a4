import BoundFields.Ascending
import BoundFields.Target.FileRef

/-!
# The index of documents

The set of documents that a bind target may point at, in the order of their paths.
-/

set_option autoImplicit false

namespace BoundFields

/-- A set of documents, in ascending order. -/
structure FileIndex where
  files : List FileRef := []
deriving DecidableEq, Repr, Inhabited

namespace FileIndex

/-- The index of these documents. -/
def ofList (files : List FileRef) : FileIndex := ⟨Ascending.ofList files⟩

/-- The index with a document, in its place. -/
def insert (index : FileIndex) (file : FileRef) : FileIndex := ⟨Ascending.insert file index.files⟩

/-- The index without a document. -/
def erase (index : FileIndex) (file : FileRef) : FileIndex := ⟨index.files.filter (· ≠ file)⟩

/-- Whether a document is in the index. -/
def contains (index : FileIndex) (file : FileRef) : Bool := index.files.contains file

/-- The number of documents. -/
def size (index : FileIndex) : Nat := index.files.length

/-- The first document with the path that a reference stands for, endings aside. -/
def matchPath? (index : FileIndex) (reference : String) : Option FileRef :=
  index.files.find? (·.stem = (FileRef.ofText reference).stem)

/-- The documents of a name, endings aside. -/
def matchName (index : FileIndex) (name : String) : List FileRef :=
  let name := String.ofList (FileRef.withoutEnding (Text.trim name.toList))
  index.files.filter (·.baseName = name)

theorem mem_ofList {files : List FileRef} {file : FileRef} :
    file ∈ (ofList files).files ↔ file ∈ files := Ascending.mem_ofList

theorem mem_insert {index : FileIndex} {file other : FileRef} :
    other ∈ (index.insert file).files ↔ other = file ∨ other ∈ index.files := Ascending.mem_insert

end FileIndex

end BoundFields
