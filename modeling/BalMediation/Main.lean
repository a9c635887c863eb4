import BalMediation.CommandLine.Run
import Mathlib.Init

/-!
# The program

Runs a command line on the files of the machine. The files that the arguments and the settings name
are read into a workspace, the command runs there, and what it changed is written back.

No process is ever started from here, so the external tool counts as unavailable.
-/

namespace BalMediation.Main

/-- The variables that settings are read from. -/
def variableNames : List String := [
  "MEDIATION_WORKING_DIR", "MEDIATION_BAL_EXECUTABLE", "MEDIATION_INDENT_WIDTH",
  "MEDIATION_SNIPPETS_DIR", "MEDIATION_INFLOW_HOOKS", "MEDIATION_OUTFLOW_HOOKS",
  "MEDIATION_RETURN_TYPE", "MEDIATION_SERVICE_DOCUMENT", "MEDIATION_DEFINITION_SUFFIX"]

/-- The variables that are set. -/
def readEnvironment : IO Environment := do
  let mut env := []
  for name in variableNames do
    if let some value ← IO.getEnv name then
      env := (name.toList, value.toList) :: env
  return env

/-- The names that lead to a path from the root. -/
def locationOf (here : List Text) (p : Path) : List Text :=
  let start := if p.anchor = .here then here else []
  p.parts.foldl (fun l part => if part = "..".toList then l.dropLast else l ++ [part]) start

/-- The name of a location for the machine. -/
def fileName (location : List Text) : String :=
  String.ofList ('/' :: Text.join ['/'] location)

/-- The file system with the file at a location, if it can be read, and the directories above. -/
def addFile (fs : FileSystem) (location : List Text) : IO FileSystem := do
  let fs := fs.putDeep [] .directory location.dropLast
  try
    let bytes ← IO.FS.readBinFile (fileName location)
    return fs.putDeep [] (.file (.blob (Blob.ofBytes bytes.toList))) location
  catch _ => return fs

/-- The paths that a command may read: its arguments and the snippets of the settings. -/
def readPaths (args : List Text) (env : Environment) : List Path :=
  let snippets := match Settings.get? env "MEDIATION_SNIPPETS_DIR" with
    | some directory => Snippet.bundled.map fun (name, _) => (Path.ofText directory).child name
    | none => []
  args.map Path.ofText ++ snippets

/-- Writes the entries that were not there before. -/
def writeBack (before after : FileSystem) : IO Unit := do
  for (location, entry) in after.entries do
    if before.entryAt? location ≠ some entry then
      match entry with
      | .directory => IO.FS.createDirAll (fileName location)
      | .file (.blob (.text t)) => IO.FS.writeFile (fileName location) (String.ofList t)
      | .file _ => pure ()

end BalMediation.Main

open BalMediation in
/-- Runs the command line and gives its exit code. -/
def main (args : List String) : IO UInt32 := do
  let args := args.map String.toList
  let env ← Main.readEnvironment
  let here := Path.ofText (toString (← IO.currentDir)).toList
  let mut files : FileSystem := ⟨[]⟩
  for p in Main.readPaths args env do
    files ← Main.addFile files (Main.locationOf here.parts p)
  let now := (← Std.Time.Timestamp.now).toMillisecondsSinceUnixEpoch
  let session : CommandLine.Session := ⟨env, here, .milliseconds now.val⟩
  let (outcome, ws) := (CommandLine.run session args).run { files, here := here.parts }
  Main.writeBack files ws.files
  IO.print (String.ofList outcome.output)
  if let some e := outcome.failure then IO.eprintln (String.ofList e.message)
  return outcome.exitCode.toUInt32
