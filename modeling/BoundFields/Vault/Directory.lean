import BoundFields.Error
import BoundFields.Keyed

/-!
# Directories

A directory as it is on disk: folders and text files by their paths. A path is followed piece by
piece, so that one through a file, or through a folder that is not there, is told from one to a
missing file. Of what lies around the directory only the folders on the way to it are known.

What a path leads to is found in the directory alone. Whatever else is asked of the file system it
may refuse, for reasons of its own (`Device`): to read a folder or a file, to make a folder, to open
a file for writing. A text may also come into a file only in part, once the old one is gone. Links,
several names of one file and other programs that change the files meanwhile are left out.
-/

set_option autoImplicit false

namespace BoundFields

/-- What a path may lead to. -/
inductive Node where
  | folder
  | file (content : String)
deriving DecidableEq, Repr

/-- What becomes of a text that is put into a file. -/
inductive Writing where
  /-- The text has taken the place of the old one. -/
  | done
  /-- The file was not opened, and is as it was. -/
  | refused (problem : FileProblem)
  /-- The file was opened, which takes the old text away, and has `kept` in it now. -/
  | stopped (problem : FileProblem) (kept : String)
deriving DecidableEq, Repr

/-- What a file system does with what is asked of it at the places of a directory. If nothing else
is said, it does all of it. -/
structure Device where
  /-- What is in the way of reading a folder or a file. -/
  reading : List String → Option FileProblem := fun _ => none
  /-- What is in the way of making a folder. -/
  making : List String → Option FileProblem := fun _ => none
  writing : List String → String → Writing := fun _ _ => .done

/-- The folders and files of a directory, by the names on the way to them. What lies outside has two
points in front of its names for every folder that the way to it leaves. -/
structure Directory where
  nodes : Keyed (List String) Node := {}
  /-- How many bytes a path has up to the directory, the slash behind it included. -/
  lead : Nat := 0
deriving DecidableEq, Repr

namespace Directory

/-- What a path of names leads to; the directory and what it lies in are folders. -/
def node? (d : Directory) (path : List String) : Option Node :=
  if path.all (· = "..") then some .folder else d.nodes.get? path

/-- The longest name, in bytes. -/
def longestName : Nat := 255

/-- The longest path, in bytes. -/
def longestPath : Nat := 4095

/-- The pieces of a path between slashes. -/
def pieces (path : String) : List String := (path.toList.splitOn '/').map String.ofList

/-- Whether a piece of a path leads nowhere. -/
def isIdle (piece : String) : Bool := piece = "" || piece = "."

/-- The names of a path. -/
def names (path : String) : List String := (pieces path).filter (!isIdle ·)

/-- Whether the last of the pieces stands before a slash. -/
def endsInSlash (pieces : List String) : Bool := pieces.getLastD "" = ""

/-! ## Following a path -/

/-- The folder around a folder. -/
def around (here : List String) : List String :=
  if here.all (· = "..") then ".." :: here else here.dropLast

/-- Where a piece leads from a folder, whether or not anything is there. -/
def step (here : List String) (piece : String) : Except FileProblem (List String) :=
  if isIdle piece then .ok here
  else if piece = ".." then .ok (around here)
  else if longestName < piece.utf8ByteSize then .error .nameTooLong
  else .ok (here ++ [piece])

/-- The folder that pieces lead to from a folder. -/
def enter (d : Directory) (here : List String) : List String → Except FileProblem (List String)
  | [] => .ok here
  | piece :: more => do
      let next ← step here piece
      match d.node? next with
      | some .folder => d.enter next more
      | some (.file _) => throw .notADirectory
      | none => throw .missing

/-- What is refused before a path is followed. -/
def checkPath (d : Directory) (pieces : List String) : Except FileProblem Unit :=
  if pieces.any (·.toList.contains '\u0000') then .error .forbiddenName
  else if longestPath < d.lead + (String.intercalate "/" pieces).utf8ByteSize then
    .error .nameTooLong
  else .ok ()

/-- The last step of a path: the folder that it starts from, and the piece. Slashes at the end of
the path do not count. -/
def lastStep (d : Directory) (pieces : List String) :
    Except FileProblem (List String × String) := do
  d.checkPath pieces
  match pieces.reverse.dropWhile (· = "") with
  | [] => return ([], ".")
  | last :: init => return (← d.enter [] init.reverse, last)

/-- Where a path leads, whether or not anything is there. -/
def locate (d : Directory) (pieces : List String) : Except FileProblem (List String) := do
  let (here, last) ← d.lastStep pieces
  step here last

/-- Whether a path leads to a folder. -/
def isFolder (d : Directory) (pieces : List String) : Bool :=
  match d.locate pieces with
  | .ok place => d.node? place = some .folder
  | .error _ => false

/-- The text of the file that a path leads to. -/
def read (d : Directory) (path : String) (device : Device := {}) : Except FileProblem String := do
  let place ← d.locate (pieces path)
  match d.node? place with
  | some (.file content) =>
      if endsInSlash (pieces path) then
        throw .notADirectory
      match device.reading place with
      | some problem => throw problem
      | none => return content
  | some .folder => throw .isADirectory
  | none => throw .missing

/-! ## Making folders and files -/

/-- The directory with a node under a name. -/
def put (d : Directory) (path : List String) (node : Node) : Directory :=
  { d with nodes := d.nodes.put path node }

/-- Makes one folder, in a folder that must be there. -/
def makeFolder (d : Directory) (path : List String) (device : Device := {}) :
    Except FileProblem Directory := do
  let place ← d.locate path
  if (d.node? place).isSome then throw .alreadyExists
  else
    match device.making place with
    | some problem => throw problem
    | none => return d.put place .folder

/-- What a path leads to, followed by the folders on the way there, innermost first; each is given
by the pieces of the path up to it. -/
def stations (pieces : List String) : List (List String) :=
  let ways := (List.range pieces.length).map fun n => pieces.take (n + 1)
  ways.reverse.filter fun way => !isIdle (way.getLastD "")

/-- Makes a folder, with the folders on the way to it that follow it in the list. -/
def makeFolders (d : Directory) (paths : List (List String)) (device : Device := {}) :
    Except FileProblem Unit × Directory :=
  match paths with
  | [] => (.ok (), d)
  | path :: outer =>
      let settle (d : Directory) (problem : FileProblem) : Except FileProblem Unit × Directory :=
        (if d.isFolder path then .ok () else .error problem, d)
      -- The folder alone is tried first, and the ones on the way only if one of them is missing.
      match d.makeFolder path device with
      | .ok d => (.ok (), d)
      | .error .missing =>
          match d.makeFolders outer device with
          | (.error problem, d) => (.error problem, d)
          | (.ok _, d) =>
              match d.makeFolder path device with
              | .ok d => (.ok (), d)
              | .error problem => settle d problem
      | .error problem => settle d problem

/-- The place of the file that a path leads to, in a folder that must be there; the file itself need
not be. -/
def filePlace (d : Directory) (pieces : List String) : Except FileProblem (List String) := do
  let (here, last) ← d.lastStep pieces
  -- A slash at the end means a folder, whatever the name before it.
  if endsInSlash pieces then
    throw .isADirectory
  let place ← step here last
  match d.node? place with
  | some .folder => throw .isADirectory
  | _ => return place

/-- Puts a text into the file at a place, as far as the file system does it. -/
def fill (d : Directory) (place : List String) (content : String) (device : Device := {}) :
    Except FileProblem Unit × Directory :=
  match device.writing place content with
  | .done => (.ok (), d.put place (.file content))
  | .refused problem => (.error problem, d)
  | .stopped problem kept => (.error problem, d.put place (.file kept))

/-- Puts a text into the file that a path leads to, and makes the folders on the way to it. -/
def write (d : Directory) (path content : String) (device : Device := {}) :
    Except FileProblem Unit × Directory :=
  match d.makeFolders (stations (pieces path)).tail device with
  | (.error problem, d) => (.error problem, d)
  | (.ok _, d) =>
      match d.filePlace (pieces path) with
      | .error problem => (.error problem, d)
      | .ok place => d.fill place content device

/-- The directory with these files, `lead` bytes of a path leading to it; a path that ends in a
slash stands for a folder. -/
def ofList (lead : Nat) (files : List (String × String)) : Directory :=
  files.foldl (fun d (path, content) =>
    if endsInSlash (pieces path) then (d.makeFolders (stations (pieces path))).2
    else (d.write path content).2) { lead }

/-- The files of the directory by their paths. -/
def files (d : Directory) : List (String × String) :=
  d.nodes.entries.filterMap fun
    | (path, .file content) =>
        if path.head? = some ".." then none else some (String.intercalate "/" path, content)
    | (_, .folder) => none

end Directory

end BoundFields
