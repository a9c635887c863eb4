import BalMediation.Node
import BalMediation.ResourcePath

/-!
# Contexts

The nodes entered on the way down to the current one. A context answers what the code generators
ask: the service, resource and signature around the current node, their paths and method, and the
modules the source imports.
-/

namespace BalMediation

/-- A node and the nodes entered before it, nearest first. -/
structure Context where
  node : Node
  parents : List Node

namespace Context

/-- The context in which only `node` has been entered. -/
def root (node : Node) : Context :=
  ⟨node, []⟩

/-- Enters a node. -/
def push (ctx : Context) (node : Node) : Context :=
  ⟨node, ctx.node :: ctx.parents⟩

/-- Goes back to the node entered before; at the root it stays. -/
def pop (ctx : Context) : Context :=
  match ctx.parents with
  | [] => ctx
  | n :: ns => ⟨n, ns⟩

/-- The current node and those entered before it. -/
def chain (ctx : Context) : List Node :=
  ctx.node :: ctx.parents

/-- The number of nodes entered before the current one. -/
def depth (ctx : Context) : Nat :=
  ctx.parents.length

/-- The nearest node of one of the kinds. -/
def nearest? (ctx : Context) (kinds : List Kind) : Option Node :=
  ctx.chain.find? fun n => kinds.contains n.kind

/-- The module around the current node. -/
def module? (ctx : Context) : Option Node :=
  ctx.nearest? [.modulePart]

/-- The service around the current node. -/
def service? (ctx : Context) : Option Node :=
  ctx.nearest? [.serviceDeclaration]

/-- The resource around the current node. -/
def resource? (ctx : Context) : Option Node :=
  ctx.nearest? [.resourceAccessorDefinition]

/-- The signature of the resource around the current node. -/
def signature? (ctx : Context) : Option Node :=
  ctx.resource?.bind (·.firstChild? .functionSignature)

/-- The name by which code refers to a module that is imported without an alias: what stands
behind the last slash and the last dot. -/
def defaultAlias (module : Text) : Text :=
  Text.afterLast '.' (Text.afterLast '/' module)

/-- Whether an import declaration makes its module known by the default name. -/
def importsByDefault (declaration : Node) : Bool :=
  match declaration.firstChild? .identifier with
  | none => true
  | some given => given.text.unescape == defaultAlias declaration.text

/-- The modules imported under their default names, sorted, each once. A module known only by
another name does not count, since code that uses the default name would not find it. -/
def importedModules (ctx : Context) : List Text :=
  match ctx.module? with
  | none => []
  | some module =>
    let names := ((module.childrenOf [.importDeclaration]).filter importsByDefault).map (·.text)
    names.eraseDups.mergeSort Text.le

/-- The path a service is attached to, as a request spells it. -/
def attachPath (written : Text) : Text :=
  let written := written.trim
  let path :=
    if written.head? = some '"' then Text.dropWhileBoth (· == '"') written
    else written.words.flatMap Text.unescape
  if path.head? = some '/' then path else '/' :: path

/-- The path of the service around the current node. -/
def servicePath (ctx : Context) : Text :=
  match ctx.service?.bind (·.firstChild? .absoluteResourcePath) with
  | none => ['/']
  | some path => if path.text.isEmpty then ['/'] else attachPath path.text

/-- The method of the resource around the current node. -/
def resourceMethod (ctx : Context) : Text :=
  match ctx.resource?.bind (·.firstChild? .identifier) with
  | none => []
  | some name => name.text.unescape

/-- The path of the resource around the current node. -/
def resourcePath (ctx : Context) : Text :=
  match ctx.resource?.bind (·.firstChild? .resourcePath) with
  | none => ['/']
  | some path => if path.text.isEmpty then ['/'] else ResourcePath.render path.text

end Context

end BalMediation
