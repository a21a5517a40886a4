import BoundFields.Metadata.FrontMatter
import BoundFields.Metadata.Store
import BoundFields.Vault.Directory

/-!
# Vaults

A vault holds the documents of a directory by their references. Opening it reads all of them
(`Vault.load`), and fails if the file system does not let one of them be read, or a folder on the
way there; a file that is no text is one that cannot be read. Its store has their metadata;
`Vault.persist` writes metadata back to the file of its document and leaves the body alone.
-/

set_option autoImplicit false

namespace BoundFields

/-- The documents of a directory, with the directory as it is now. -/
structure Vault where
  /-- The path of the directory. -/
  root : String
  documents : Keyed FileRef String := {}
  disk : Directory
deriving DecidableEq, Repr

namespace Vault

/-- Whether a name is one of a hidden folder. -/
def isHidden (name : String) : Bool := name.toList.head? = some '.'

/-- Whether a file of this name is a document: something stands before its ending. -/
def isDocumentName (name : String) : Bool :=
  match Text.dropSuffix? FileRef.ending name.toList with
  | some stem => !stem.isEmpty
  | none => false

/-- Whether the file at a path is a document: no folder on the way to it is hidden. -/
def isDocument (path : List String) : Bool :=
  !path.dropLast.any isHidden && isDocumentName (path.getLastD "")

/-- The document in a file. -/
def documentOf? : List String × Node → Option (FileRef × String)
  | (path, .file content) =>
      if isDocument path then some (FileRef.ofText (String.intercalate "/" path), content)
      else none
  | (_, .folder) => none

/-- The vault of a directory that can be read. -/
def ofDirectory (root : String) (disk : Directory) : Vault :=
  { root, documents := .ofList (disk.nodes.entries.filterMap documentOf?), disk }

/-- Whether something is read when the vault is opened: a folder that is not hidden, for what is in
it, or a document. -/
def isVisited : List String × Node → Bool
  | (path, .folder) => !path.any isHidden
  | (path, .file _) => isDocument path

/-- What keeps a vault from being opened. -/
def obstacle? (disk : Directory) (device : Device) : Option FileProblem :=
  (([], .folder) :: disk.nodes.entries).findSome? fun entry =>
    if isVisited entry then device.reading entry.1 else none

/-- Opens the vault of a directory. Of several problems the one that comes first in the directory is
reported. -/
def load (root : String) (disk : Directory) (device : Device) : Except Error Vault :=
  match obstacle? disk device with
  | some problem => .error (.badFile problem)
  | none => .ok (ofDirectory root disk)

/-- The documents, in the order of their paths. -/
def index (v : Vault) : FileIndex := FileIndex.ofList v.documents.keys

/-- The text of a document. -/
def document? (v : Vault) (file : FileRef) : Option String := v.documents.get? file

/-- Where a document is on disk. -/
def pathOf (v : Vault) (file : FileRef) : String := v.root ++ "/" ++ file.path

/-- The metadata of a document; one without any, or with metadata that cannot be read, has the
empty mapping. -/
def metadataOf (content : String) : Value :=
  match FrontMatter.split content with
  | .ok (some metadata, _) => metadata
  | .ok (none, _) | .error _ => Value.empty

/-- The store of the metadata of all documents. -/
def store (v : Vault) : Store :=
  v.documents.entries.foldl (fun s (file, content) => s.insert file (metadataOf content)) {}

/-- The text of a document with the metadata that the store has for it. A document whose metadata
cannot be read is left as it is. -/
def updated (v : Vault) (store : Store) (file : FileRef) : Except Error String := do
  match store.snapshot? file with
  | none => throw (.noMetadata file.path)
  | some metadata =>
      let current := (v.document? file).getD ""
      let (_, body) ← (FrontMatter.split current).mapError (.notRewritten file.path)
      FrontMatter.render metadata body

/-- Writes the metadata that the store has for a document to its file. -/
def persist (v : Vault) (store : Store) (file : FileRef) (device : Device := {}) :
    Except Error Unit × Vault :=
  match v.updated store file with
  | .error error => (.error error, v)
  | .ok content =>
      match v.disk.write file.path content device with
      | (.ok _, disk) => (.ok (), { v with documents := v.documents.put file content, disk })
      | (.error problem, disk) => (.error (.badFile problem), { v with disk })

end Vault

end BoundFields
