/-
The program: it reads the folder that holds all projects, converts one of them, and writes what
has changed.
-/
import PhpMigration.CommandLine.Basic
import PhpMigration.Remote.Offline

namespace PhpMigration.CommandLine

/-- What is filed under a name of a folder; a link to a folder is passed over. -/
partial def readItem (item : IO.FS.DirEntry) : IO (Option Entry) := do
  let isLink := (← item.path.symlinkMetadata).type == .symlink
  if ← item.path.isDir then
    if isLink then return none
    let mut entries : Table Entry := []
    for inner in ← item.path.readDir do
      if let some e ← readItem inner then entries := (inner.fileName, e) :: entries
    return some (.folder entries)
  try return some (.file (← IO.FS.readBinFile item.path))
  catch _ => return none

/-- Write what a tree holds and another one does not. -/
def writeChanges (folder : String) (before after : Entry) : IO Unit := do
  for (path, e) in after.contents do
    let target := folder ++ "/" ++ Path.join path
    match before.at? path, e with
    | none, .folder _ => IO.FS.createDirAll target
    | some (.file old), .file new => if old.data ≠ new.data then IO.FS.writeBinFile target new
    | _, .file new => IO.FS.writeBinFile target new
    | _, _ => pure ()

/-- The text of a file, if it can be read. -/
def textOf? (path : String) : IO (Option String) := do
  try return some (← IO.FS.readFile path)
  catch _ => return none

/-- What is set in the environment under some names. -/
def environment (names : List String) : IO Environment := do
  let found ← names.mapM fun name => do return (← IO.getEnv name).map fun value => (name, value)
  return found.filterMap id

/-- The names that the shipped models look for in the environment. -/
def variableNames : List String := ["GROQ_API_KEY", "GROQ_BASE_URL", "OLLAMA_BASE_URL"]

/-- The breakers of the shipped file. -/
def breakers : Value :=
  (Configuration.breakers Configuration.shippedResilience).toOption.getD (.object [])

/-- Convert a project below a folder of the file system. -/
def convertBelow (a : Arguments) (s : Settings) (state : Delegate.Station Unit) : IO Ending := do
  let folder := s.uploadFolder
  let here ← IO.currentDir
  let full := if "/".isPrefixOf folder then folder else here.toString ++ "/" ++ folder
  let name := "/" ++ Path.join (Path.parts full)
  let top := (← try readItem ⟨name, ""⟩ catch _ => pure none).getD (.folder [])
  let instructions := Instructions.ofFile (some Instructions.shipped)
  let c := Converter.ofService s parseSource
    (Delegate.service breakers instructions Delegate.offline)
  let (ending, w) := convert c a { tree := ⟨name, top⟩, service := state }
  writeChanges name top w.tree.top
  match ending with
  | .ok ending => return ending
  | .error incident => return ⟨1, "", incident.text ++ "\n"⟩

/-- Answer a call. -/
def run (words : List String) : IO Ending := do
  match Call.of words with
  | .refused => return .refused
  | .help => return .help
  | .convert a =>
    let text ← textOf? "args/conversion_config.yaml"
    let document := (text.map fun text => Configuration.ofFile (some text)).getD
      Configuration.shippedConversion
    let station := Delegate.Station.offline Configuration.shippedModels (← environment variableNames)
    match a.settings document, station with
    | .ok s, .ok state => convertBelow a s state
    | .error misfit, _ | _, .error misfit => return ⟨1, "", (Incident.misfit misfit).text ++ "\n"⟩

end PhpMigration.CommandLine

/-- Convert the project that the words name. -/
def main (words : List String) : IO UInt32 := do
  let ending ← PhpMigration.CommandLine.run words
  IO.print ending.output
  IO.eprint ending.errors
  return ending.code.toUInt32
