import BalMediation.Archive
import BalMediation.Bal
import BalMediation.Mediation
import BalMediation.Project
import BalMediation.Settings

/-!
# Proxies

From an API archive to a mediated proxy service: ask for the distribution home, make a project,
extract the definition into it, let the tool generate a service, mediate that, and write the result
beside it.
-/

namespace BalMediation.Proxy

/-- The snippets of a workspace that the settings point to. -/
def snippets (s : Settings) (ws : Workspace) : Snippets :=
  s.snippets.read ws.files ws.here

/-- A document after mediation with the hooks of the settings, or of the caller. -/
def mediate (s : Settings) (o : Overrides) (snippets : Snippets) (d : Document) :
    Except Error Document := do
  let boilerplate ← snippets Mediation.boilerplateName
  Mediation.patch d boilerplate (.templated snippets (s.hooks o)) s.indentWidth

/-- Generates a mediated proxy service and gives the path of the file. -/
def generate (archive : Path) (s : Settings) (o : Overrides) (moment : Moment) : Action Path := do
  let home ← Bal.home s.balExecutable
  let path ← Project.create s.workingDir moment
  let definition ← Archive.extractDefinition archive path s.definitionSuffix
  Bal.generate definition path (some home) s.balExecutable
  let project ← Project.load path (some home)
  let document ← Action.ofExcept (project.find s.serviceDocument)
  let patched ← Action.ofExcept (mediate s o (snippets s (← get)) document)
  Project.write patched project.path

end BalMediation.Proxy
