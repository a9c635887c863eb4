import BalMediation.Workspace

/-!
# The Ballerina tool

Commands of the external `bal` tool: asking for its distribution home, and generating a service
from an API definition.
-/

namespace BalMediation.Bal

/-- The home of the distribution: the first line that the tool prints, without blanks around it. -/
def home (executable : Text) : Action Path := do
  let command := [executable, "home".toList]
  let printed := (← Action.launch command).trim
  if printed.isEmpty then throw (.tool command (some 0) "no distribution home reported".toList)
  else return Path.ofText printed.firstLine.trim

/-- The launcher in the distribution home, if it is there, else the executable. -/
def command (fs : FileSystem) (here : List Text) (home : Option Path) (executable : Text) :
    Except SystemError Text :=
  match home with
  | none => .ok executable
  | some home => do
    let launcher := home.child "bin/bal".toList
    return if (← fs.find? here launcher).isSome then launcher.toText else executable

/-- The command that generates a service from a definition into a project. -/
def generateCommand (launcher : Text) (definition project : Path) : List Text :=
  [launcher, "openapi".toList, "-i".toList, definition.toText, "-o".toList, project.toText,
    "--mode".toList, "service".toList]

/-- Generates a service from a definition into a project. -/
def generate (definition project : Path) (home : Option Path) (executable : Text) :
    Action Unit := do
  let launcher ← Action.inspect (command · · home executable)
  let _ ← Action.launch (generateCommand launcher definition project)

end BalMediation.Bal
