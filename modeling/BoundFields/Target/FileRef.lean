import BoundFields.Text.Pieces

/-!
# References to documents

A document goes by its path within the vault, with slashes between the parts and no mark of the
current folder in front. The ending of document names does not count when a document is looked up.
-/

set_option autoImplicit false

namespace BoundFields

/-- The path of a document within the vault. -/
structure FileRef where
  path : String
deriving DecidableEq, Repr, Inhabited

namespace FileRef

instance : LT FileRef := ⟨fun a b => a.path < b.path⟩

instance : DecidableLT FileRef := fun a b => inferInstanceAs (Decidable (a.path < b.path))

/-- The text without any `./` at its start. -/
def dropCurrent : List Char → List Char
  | '.' :: '/' :: rest => dropCurrent rest
  | cs => cs

/-- The document that a path stands for: blanks around it do not count, a backslash is a slash,
and first every `./` and then every slash is taken from its start. -/
def ofText (raw : String) : FileRef :=
  let slashed := (Text.trim raw.toList).map fun c => if c = '\\' then '/' else c
  ⟨String.ofList ((dropCurrent slashed).dropWhile (· = '/'))⟩

/-- The ending of document names. -/
def ending : List Char := ".md".toList

/-- A path without the ending of document names. -/
def withoutEnding (path : List Char) : List Char := (Text.dropSuffix? ending path).getD path

/-- The path without the ending of document names. -/
def stem (file : FileRef) : String := String.ofList (withoutEnding file.path.toList)

/-- The last part of a path. -/
def lastPart (path : List Char) : List Char := (path.splitOn '/').getLastD []

/-- The name without folders and ending. -/
def baseName (file : FileRef) : String := String.ofList (lastPart file.stem.toList)

/-- Whether a reference is a path, and not a name that may be found anywhere. -/
def isExplicit (reference : String) : Bool :=
  reference.toList.contains '/' || (Text.dropSuffix? ending reference.toList).isSome

end FileRef

end BoundFields
