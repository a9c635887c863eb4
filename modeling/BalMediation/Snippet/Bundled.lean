import BalMediation.FileSystem

/-!
# Bundled snippets

The snippets that come with the library. `boilerplate.bal` is appended to a document as it stands;
the others are templates.
-/

namespace BalMediation.Snippet

/-- Lines, each ended by a newline. -/
def lines (ls : List String) : Text :=
  ls.flatMap fun l => l.toList ++ ['\n']

/-- The declarations that mediated resources rely on. -/
def boilerplate : Text := lines [
  "",
  "configurable string backendUrl = \"http://localhost:9090\";",
  "",
  "final http:Client backendEP = check new (backendUrl);",
  "",
  "# Request metadata handed to every mediation hook.",
  "#",
  "# + httpMethod - HTTP method of the resource being invoked",
  "# + resourcePath - Path of the resource relative to the service base path",
  "# + serviceBasePath - Base path the service is attached to",
  "# + attributes - Values shared between inflow and outflow hooks",
  "public type MediationContext record \x7b|",
  "    string httpMethod;",
  "    string resourcePath;",
  "    string serviceBasePath;",
  "    map<string> attributes = \x7b\x7d;",
  "|\x7d;"]

/-- The record that tells hooks about the request. -/
def contextRecord : Text := lines [
  "MediationContext \x7b\x7b context \x7d\x7d = \x7b",
  "    httpMethod: \"\x7b\x7b method \x7d\x7d\",",
  "    resourcePath: string `\x7b\x7b resource_path \x7d\x7d`,",
  "    serviceBasePath: \"\x7b\x7b service_path \x7d\x7d\"",
  "\x7d;"]

/-- Import declarations for missing modules. -/
def imports : Text := lines [
  "\x7b% for module in modules %\x7d",
  "import \x7b\x7b module \x7d\x7d;",
  "\x7b% endfor %\x7d"]

/-- The call of one inflow hook. -/
def inflowTemplate : Text := lines [
  "check \x7b\x7b hook \x7d\x7d(\x7b\x7b context \x7d\x7d, \x7b\x7b request \x7d\x7d);"]

/-- The block that calls the hooks around one forward. -/
def mediationBlock : Text := lines [
  "do \x7b",
  "\x7b% for call in inflow_calls %\x7d",
  "    \x7b\x7b call \x7d\x7d",
  "\x7b% endfor %\x7d",
  "    http:Response \x7b\x7b response \x7d\x7d = check backendEP->forward(\x7b\x7b context \x7d\x7d.resourcePath, \x7b\x7b request \x7d\x7d);",
  "\x7b% for call in outflow_calls %\x7d",
  "    \x7b\x7b call \x7d\x7d",
  "\x7b% endfor %\x7d",
  "    return \x7b\x7b response \x7d\x7d;",
  "\x7d"]

/-- The call of one outflow hook. -/
def outflowTemplate : Text := lines [
  "check \x7b\x7b hook \x7d\x7d(\x7b\x7b context \x7d\x7d, \x7b\x7b response \x7d\x7d);"]

/-- The bundled snippets by name. -/
def bundled : List (Text × Text) := [
  ("boilerplate.bal".toList, boilerplate),
  ("context_record.bal".toList, contextRecord),
  ("imports.bal".toList, imports),
  ("inflow_template.bal".toList, inflowTemplate),
  ("mediation_block.bal".toList, mediationBlock),
  ("outflow_template.bal".toList, outflowTemplate)]

/-- The bundled snippets as files in a directory of their own. -/
def bundledFiles : FileSystem :=
  ⟨(["snippets".toList], .directory) ::
    bundled.map fun (name, t) => (["snippets".toList, name], .file (.text t))⟩

end BalMediation.Snippet
