import BoundFields.Command.Invocation

/-!
# The program

Reads the vault from disk, runs the command that the command line asks for, writes the document that
it changed and prints its report. What cannot be read is left to the command; that a document cannot
be written is reported in place of what the command has to say.
-/

set_option autoImplicit false

namespace BoundFields.Program

/-- Whether a file is one that commands look at. -/
def isWanted (path : String) : Bool :=
  path = Context.settingsFile || Vault.isDocumentName ((Directory.pieces path).getLastD "")

/-- Whether a folder is one that commands look into. -/
def isOpen (name : String) : Bool := !Vault.isHidden name || name = ".metabind"

/-- What was found on disk: texts by the paths of their files, with a slash at the end of a path for
a folder, and what kept folders and files from being read. -/
structure Found where
  files : List (String × String) := []
  problems : List (List String × FileProblem) := []

/-- Everything that was found in two places. -/
def Found.and (found more : Found) : Found :=
  ⟨found.files ++ more.files, found.problems ++ more.problems⟩

/-- What is found at a path, or else what keeps it from being read. -/
def findAt (path : String) (read : IO Found) : IO Found := do
  try read catch error => return { problems := [(Directory.names path, .other (toString error))] }

/-- The wanted files below a folder, whose path within the vault is `start`. -/
partial def readFolder (start : String) (entries : Array IO.FS.DirEntry) : IO Found := do
  let mut found : Found := {}
  for entry in entries do
    let path := start ++ entry.fileName
    if ← entry.path.isDir then
      if isOpen entry.fileName then
        let inside ← findAt path do readFolder (path ++ "/") (← entry.path.readDir)
        found := found.and ⟨(path ++ "/", "") :: inside.files, inside.problems⟩
    else if isWanted path then
      let text ← findAt path do return ⟨[(path, ← IO.FS.readFile entry.path)], []⟩
      found := found.and (if text.files.isEmpty then ⟨[(path, "")], text.problems⟩ else text)
  return found

/-- The wanted files of a vault; one that is not there has none. -/
def readVault (root : String) : IO Found := do
  let folder ← try IO.FS.realPath root catch _ => return {}
  if ← folder.isDir then findAt "" do readFolder "" (← folder.readDir)
  else return {}

/-- What a path leads to, if it can be read. -/
def readNamed (path : String) : IO Directory := do
  try
    if ← (← IO.FS.realPath path).isDir then return .ofList 0 [(path ++ "/", "")]
    return .ofList 0 [(path, ← IO.FS.readFile path)]
  catch _ => return {}

/-- Writes the files that differ from those before. -/
def writeChanged (root : String) (before after : Directory) : IO Unit := do
  for (path, content) in after.files do
    unless before.files.contains (path, content) do
      IO.FS.createDirAll (String.intercalate "/" (root :: (Directory.pieces path).dropLast))
      IO.FS.writeFile (root ++ "/" ++ path) content

/-- Runs the command of a command line, and gives the exit code. -/
def carryOut (invocation : Invocation) : IO UInt32 := do
  let root ← match invocation.vault.or (← IO.getEnv "METABIND_VAULT") with
    | some root => pure root
    | none => (·.toString) <$> IO.currentDir
  let found ← readVault root
  let disk := Directory.ofList (root.utf8ByteSize + 1) found.files
  let device : Device := { reading := fun place => found.problems.lookup place }
  let elsewhere ← match invocation.settings with
    | some path => readNamed path
    | none => pure {}
  let context : Context := { root, disk, settingsPath := invocation.settings, elsewhere, device }
  let outcome := invocation.command.run context
  let refuse (error : Error) : IO UInt32 := do
    IO.println (Line.error ("Error: " ++ error.message)).text
    return 1
  try writeChanged root disk outcome.disk
  catch error => return ← refuse (.badFile (.other (toString error)))
  for line in outcome.lines do
    IO.println line.text
  match outcome.result with
  | .ok done => return if done then 0 else 1
  | .error (.refused error) => refuse error
  | .error (.unwritableDate format) =>
      IO.eprintln s!"a date cannot be written in the format '{format}'"
      return 101

end BoundFields.Program

/-- Carries out a command line, or tells what is wrong with it. -/
def main (words : List String) : IO UInt32 :=
  match BoundFields.Invocation.ofWords words with
  | .ok invocation => BoundFields.Program.carryOut invocation
  | .error problem => do
      IO.eprintln problem.name
      return match problem with
        | .displayHelp | .displayVersion => 0
        | _ => 2
