import BoundFields.Target.FieldPath
import BoundFields.Target.FileIndex

/-!
# Bind targets

A bind target is a field of a document, written as the document, a hash and the field path. The
document may be left out, and may be given by its path or by its name alone; a path that matches
wins over names. Among several documents of one name none is picked unless the policy says so.
-/

set_option autoImplicit false

namespace BoundFields

/-- A field of a document. -/
structure Target where
  file : FileRef
  path : FieldPath
deriving DecidableEq, Repr, Inhabited

/-- Every document that a bind target could mean, and the field path. -/
structure Candidates where
  files : List FileRef
  path : FieldPath
deriving DecidableEq, Repr

/-- What to do with several candidates: refuse, or take the first in the order of paths. -/
inductive AmbiguityPolicy where
  | reject
  | first
deriving DecidableEq, Repr, Inhabited

namespace Target

/-- The document, a hash and the field path. -/
def text (t : Target) : String := t.file.path ++ "#" ++ t.path.text

/-- The two parts of a bind target as it is written: the reference to a document, if there is
one, and the field path. -/
def split (raw : String) : Except Error (Option String × FieldPath) :=
  let raw := Text.trim raw.toList
  match Text.cutAt '#' raw with
  | some (file, path) =>
      let file := Text.trim file
      if file.isEmpty then .error (.unresolved (String.ofList raw) .emptyFile)
      else (FieldPath.ofText (String.ofList path)).map fun path => (some (String.ofList file), path)
  | none => (FieldPath.ofText (String.ofList raw)).map fun path => (none, path)

/-- The documents that a reference could mean, seen from the document `context`. -/
def filesOf (context : FileRef) (index : FileIndex) : Option String → List FileRef
  | none => [context]
  | some reference =>
      match index.matchPath? reference with
      | some file => [file]
      | none => if FileRef.isExplicit reference then [] else index.matchName reference

/-- Every document that a bind target could mean; only a bad form is an error. -/
def candidates (raw : String) (context : FileRef) (index : FileIndex) :
    Except Error Candidates := do
  let (reference, path) ← split raw
  return ⟨filesOf context index reference, path⟩

/-- The field that a bind target means. -/
def resolve (raw : String) (context : FileRef) (index : FileIndex) (policy : AmbiguityPolicy) :
    Except Error Target := do
  let found ← candidates raw context index
  match found.files, policy with
  | [], _ => throw (.unresolved raw .noDocument)
  | [file], _ | file :: _, .first => return ⟨file, found.path⟩
  | files, .reject => throw (.unresolved raw (.severalDocuments (files.map (·.path))))

end Target

end BoundFields
