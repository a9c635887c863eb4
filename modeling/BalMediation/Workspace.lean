import BalMediation.Error

/-!
# Workspaces

What a run can reach outside of itself: the file system, seen from a current directory, and the
external tool, whose replies are given beforehand. Both are values, so a run is a function and what
it leaves behind, even after a failure, is part of its result.
-/

namespace BalMediation

/-- How the external tool answers one command. -/
inductive Reply where
  /-- It cannot be started. -/
  | unavailable (reason : Text)
  /-- It ends with an exit code, having written files into its output directory. -/
  | finished (exitCode : Int) (stdout stderr : Text) (files : List (Text × Content))

/-- The file system, the current directory, the replies still to come, and the commands run so
far. -/
structure Workspace where
  files : FileSystem
  here : List Text := []
  replies : List Reply := []
  launched : List (List Text) := []

/-- A run in a workspace. What it did to the workspace stays, also if it fails. -/
abbrev Action := ExceptT Error (StateM Workspace)

namespace Action

/-- A result that does not depend on the workspace. -/
def ofExcept {α : Type} : Except Error α → Action α
  | .ok a => pure a
  | .error e => throw e

/-- What an operation reads from the file system. -/
def inspect {α : Type} (f : FileSystem → List Text → Except SystemError α) : Action α := do
  let ws ← get
  ofExcept ((f ws.files ws.here).mapError .system)

/-- Changes the file system, or fails and leaves it alone. -/
def update (f : FileSystem → List Text → Except SystemError FileSystem) : Action Unit := do
  let files ← inspect f
  modify fun ws => { ws with files }

/-- The text in a file. -/
def readText (p : Path) : Action Text := do
  match (← inspect (·.read · p)).text? with
  | some t => return t
  | none => throw .undecodable

/-- Writes a text into a file. -/
def writeText (p : Path) (t : Text) : Action Unit :=
  update (·.write · p (.text t))

/-- Makes a directory. -/
def makeDirectory (p : Path) : Action Unit :=
  update (·.makeDirectory · p)

/-- Makes an empty file. -/
def touch (p : Path) : Action Unit :=
  update (·.touch · p)

end Action

namespace Workspace

/-- The argument behind `-o` in a command. -/
def outputArgument? : List Text → Option Text
  | flag :: argument :: rest =>
    if flag = "-o".toList then some argument else outputArgument? (argument :: rest)
  | _ => none

/-- Writes the files of a reply into the output directory of its command. -/
def writeOutput (ws : Workspace) (command : List Text) (files : List (Text × Content)) :
    Workspace :=
  match outputArgument? command with
  | none => ws
  | some output =>
    match ws.files.resolve ws.here (Path.ofText output) with
    | .error _ => ws
    | .ok location =>
      { ws with
        files := files.foldl (fun fs (name, content) =>
          fs.putDeep location (.file content) (Path.ofText name).parts) ws.files }

end Workspace

/-- Runs a command of the external tool and gives what it writes to its standard output. Without a
reply to come the command cannot be started. -/
def Action.launch (command : List Text) : Action Text := do
  modify fun ws => { ws with launched := ws.launched ++ [command] }
  match (← get).replies with
  | [] => throw (.tool command none "no scripted run".toList)
  | reply :: replies =>
    modify fun ws => { ws with replies }
    match reply with
    | .unavailable reason => throw (.tool command none reason)
    | .finished exitCode stdout stderr files =>
      modify (·.writeOutput command files)
      if exitCode = 0 then return stdout
      else throw (.tool command (some exitCode) stderr.trim)

end BalMediation
