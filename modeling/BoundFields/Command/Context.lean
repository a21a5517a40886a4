import BoundFields.Settings.Reader
import BoundFields.Settings.Validation
import BoundFields.Vault.Basic

/-!
# Where commands work

A command works on a vault. Its settings are in a file of the vault's own folder, and without that
file they are the defaults; another file may be named instead, and must then be there. Paths are
given from the vault on, or with the path of the vault in front. What the file system does in the
vault is up to its device; outside of the vault nothing is written, and a file that cannot be read
is not there.
-/

set_option autoImplicit false

namespace BoundFields

/-- A vault on disk, and what a command reads besides. -/
structure Context where
  /-- The path of the vault. -/
  root : String
  disk : Directory
  /-- The path of the settings file, if one is named. -/
  settingsPath : Option String := none
  /-- What is not in the vault; paths that do not lead there start here. -/
  elsewhere : Directory := {}
  /-- What the file system does in the vault. -/
  device : Device := {}

namespace Context

/-- What is left of the pieces of a path behind the names `root`. -/
def piecesBehind? : List String → List String → Option (List String)
  | [], pieces => some pieces
  | _ :: _, [] => none
  | name :: names, piece :: pieces =>
      if Directory.isIdle piece then piecesBehind? (name :: names) pieces
      else if piece = name then piecesBehind? names pieces
      else none

/-- The pieces behind the vault of a path that leads through it. The path of the vault counts as
one from the root of all folders, so slashes in front of it change nothing. -/
def within? (root path : String) : Option (List String) :=
  match Directory.pieces path with
  | piece :: pieces =>
      if piece = "" || piece = (Directory.pieces root).headD "" then
        piecesBehind? (Directory.names root) (piece :: pieces)
      else none
  | [] => none

/-- The path of the settings file within its vault. -/
def settingsFile : String := ".metabind/settings.yml"

/-- The text of a file at a path, in the vault or not. -/
def readFile (c : Context) (path : String) : Except FileProblem String :=
  match within? c.root path with
  | some pieces => c.disk.read (String.intercalate "/" pieces) c.device
  | none => c.elsewhere.read path

/-- The path and the text of the settings file; `none` if the vault has none. -/
def settingsText? (c : Context) : Except Error (Option (String × String)) :=
  let read (path : String) (content : Except FileProblem String) :
      Except Error (Option (String × String)) :=
    match content with
    | .ok content => .ok (some (path, content))
    | .error .missing => .error (.missingSettings path)
    | .error problem => .error (.badFile problem)
  match c.settingsPath with
  | some path => read path (c.readFile path)
  | none =>
      if (c.disk.node? (Directory.names settingsFile)).isSome then
        read (c.root ++ "/" ++ settingsFile) (c.disk.read settingsFile c.device)
      else .ok none

/-- The settings, which must be valid. -/
def settings (c : Context) : Except Error Settings := do
  let settings ← match ← c.settingsText? with
    | some (path, content) => Settings.ofText path content
    | none => .ok {}
  settings.validate
  return settings

/-- The vault, if everything in it can be read. -/
def vault (c : Context) : Except Error Vault := Vault.load c.root c.disk c.device

/-- The document of the vault that a path on the command line means. -/
def document (c : Context) (vault : Vault) (path : String) : Except Error FileRef :=
  let trim (pieces : List String) : List String :=
    ((pieces.dropWhile Directory.isIdle).reverse.dropWhile Directory.isIdle).reverse
  let inside := (within? c.root path).map fun pieces => String.intercalate "/" (trim pieces)
  match vault.index.matchPath? (inside.getD path) with
  | some file => .ok file
  | none => .error (.notADocument path c.root)

end Context

end BoundFields
