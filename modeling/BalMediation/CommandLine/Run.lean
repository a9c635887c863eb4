import BalMediation.CommandLine.Arguments
import BalMediation.Console.Outline
import BalMediation.Console.Table
import BalMediation.Proxy

/-!
# Running commands

A command runs in a workspace and ends with an exit code and what it prints. A reported error is
printed and gives exit code 1; any other error also does, and is left to the caller.
-/

namespace BalMediation.CommandLine

/-- How a command ends. `failure` is the error that was not reported, if any. -/
structure Outcome where
  exitCode : Nat
  output : Text
  failure : Option Error := none

/-- What a command needs besides its workspace. -/
structure Session where
  environment : Environment
  /-- The current directory. -/
  here : Path
  /-- The time at which the command runs, since the epoch. -/
  moment : Moment

/-- A marked line as it is printed. Printing itself is taken never to fail: standard output has a
code for every character, has room and stays open. -/
def printed (marked : Text) : Except Error Text := do
  let shown ← (Markup.plain marked).mapError .markup
  return Wrap.text shown ++ ['\n']

/-- The end of a command that prints a text, or fails in doing so. -/
def Outcome.ofPrinted (exitCode : Nat) : Except Error Text → Outcome
  | .ok output => ⟨exitCode, output, none⟩
  | .error e => ⟨1, [], some e⟩

/-- The end of a command that fails. -/
def Outcome.ofError (e : Error) : Outcome :=
  if e.isReported then .ofPrinted 1 (printed (Markup.styled "red" (Markup.escape e.message)))
  else ⟨1, [], some e⟩

/-- The end of a command whose file does not exist. -/
def Outcome.fileNotFound (p : Path) : Outcome :=
  .ofPrinted 1 (printed (Markup.styled "red" ("File not found: ".toList ++ p.toText)))

/-- The settings of the environment. -/
def settings (s : Session) : Except Error Settings :=
  (Settings.read s.environment s.here).mapError .settings

/-- The edits of a batch as a table, and their number. -/
def editTable (edits : List Edit) : Except Error Text := do
  let rows ← edits.mapM fun e => do
    let text ← (Markup.plain (Markup.escape e.text.quoted)).mapError .markup
    return [Text.ofInt e.start, Text.ofInt e.length, text]
  let heading := ["start", "length", "text"].map String.toList
  return Table.render heading rows ++
    "(".toList ++ Text.ofNat edits.length ++ " edits)\n".toList

/-- The second pass over a document, without its result. -/
def dryRun (s : Session) (o : Overrides) (ws : Workspace) (d : Document) :
    Except Error (List Edit) := do
  let settings ← settings s
  let snippets := Proxy.snippets settings ws
  let boilerplate ← snippets Mediation.boilerplateName
  let (_, edits) ←
    Mediation.batch d boilerplate (.templated snippets (settings.hooks o)) settings.indentWidth
  return edits

/-- Both passes over a document. -/
def mediated (s : Session) (o : Overrides) (ws : Workspace) (d : Document) :
    Except Error Document := do
  let settings ← settings s
  Proxy.mediate settings o (Proxy.snippets settings ws) d

/-- Where the result of mediating a file goes. -/
def target (file : Path) (output : Option Text) : Path :=
  match output with
  | some output => Path.ofText output
  | none => file.withName (Project.generatedMark ++ file.name)

/-- The command that generates a proxy. -/
def runGenerate (s : Session) (archive : Path) (o : Overrides) : StateM Workspace Outcome := do
  match settings s with
  | .error e => return .ofError e
  | .ok settings =>
    match ← (Proxy.generate archive settings o s.moment).run with
    | .error e => return .ofError e
    | .ok path =>
      let message := Markup.styled "green" "Generated".toList ++ [' '] ++ path.toText
      return .ofPrinted 0 (printed message)

/-- The command that mediates a file. -/
def runPatch (s : Session) (file : Path) (o : Overrides) (output : Option Text) (dry : Bool) :
    StateM Workspace Outcome := do
  match ← (Action.readText file).run with
  | .error (.system .notFound) => return .fileNotFound file
  | .error e => return .ofError e
  | .ok text =>
    let document : Document := ⟨file.name, text⟩
    let ws ← get
    if dry then
      match dryRun s o ws document with
      | .error e => return .ofError e
      | .ok edits => return .ofPrinted 0 (editTable edits)
    else
      match mediated s o ws document with
      | .error e => return .ofError e
      | .ok patched =>
        let target := target file output
        match ← (Action.writeText target patched.text).run with
        | .error e => return .ofError e
        | .ok () =>
          let message :=
            Markup.styled "green" "Patched".toList ++ [' '] ++ file.toText ++ " -> ".toList ++
              target.toText
          return .ofPrinted 0 (printed message)

/-- The command that shows a syntax tree. -/
def runTree (file : Path) : StateM Workspace Outcome := do
  match ← (Action.readText file).run with
  | .error (.system .notFound) => return .fileNotFound file
  | .error e => return .ofError e
  | .ok text =>
    match Tree.parse text with
    | .error e => return .ofError (.parse e)
    | .ok tree =>
      return .ofPrinted 0 ((Outline.render tree.root).mapError .markup)

/-- What is shown for help or a misuse. This one text stands for all of these, the help of each
command and each report on a misuse, and does not follow their wording. -/
def usage : Text :=
  String.toList "Usage: [--verbose] generate ARCHIVE | patch FILE | tree FILE\n"

/-- Runs a command line. -/
def run (s : Session) (arguments : List Text) : StateM Workspace Outcome :=
  match parse arguments with
  | .misuse => return ⟨2, usage, none⟩
  | .help => return ⟨0, usage, none⟩
  | .run (.generate archive o) => runGenerate s (Path.ofText archive) o
  | .run (.patch file o output dry) => runPatch s (Path.ofText file) o output dry
  | .run (.tree file) => runTree (Path.ofText file)

end BalMediation.CommandLine
