import BalMediation.Text.Quoted
import BalMediation.Workspace

/-!
# API archives

An archive holds the definition of an API under a name with a known ending. The first such name
counts; if several entries bear it, the last of them does.
-/

namespace BalMediation.Archive

/-- The file that a definition is extracted to. -/
def definitionFile : Text := "proxy.yaml".toList

/-- The entry that holds the definition. -/
def definition? (entries : List (Text × Blob)) (suffix : Text) : Option Blob := do
  let (name, _) ← entries.find? fun (name, _) => suffix.isSuffixOf name
  let (_, blob) ← entries.reverse.find? (·.1 = name)
  return blob

/-- The text of the definition in an archive. Its line endings are kept. -/
def readDefinition (archive : Path) (suffix : Text) : Action Text := do
  let ws ← get
  match ws.files.read ws.here archive with
  | .error .notFound =>
    let reason := "[Errno 2] No such file or directory: ".toList ++ archive.toText.quoted
    throw (.archiveUnreadable archive reason)
  | .error e => throw (.system e)
  | .ok (.blob _) => throw (.archiveUnreadable archive "File is not a zip file".toList)
  | .ok (.archive entries) =>
    match definition? entries suffix with
    | none => throw (.definitionNotFound archive)
    | some (.bytes _) => throw .undecodable
    | some (.text t) => return t

/-- Writes the definition of an archive into a project and gives the path of the file. -/
def extractDefinition (archive project : Path) (suffix : Text) : Action Path := do
  let text ← readDefinition archive suffix
  let path := project.child definitionFile
  Action.writeText path text
  return path

end BalMediation.Archive
