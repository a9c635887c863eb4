import BalMediation.Fragment

/-!
# Patches

Where mediation code goes. A plan is the list of sites of a tree in source order; each site asks a
generator for one or two fragments and becomes as many edits. All edits of a batch refer to the
same source.

In every resource accessor of every service there is a site behind the opening parenthesis, one at
the return type, if there is one, and one in front of the brace that closes a block body. If that
brace stands first on its line, code goes to the start of the line; otherwise a new line is opened
in front of the brace.
-/

namespace BalMediation

/-- A place of the source where code goes, with the context it has there. -/
inductive Site where
  /-- In front of the parameters of a signature. -/
  | params (offset : Nat) (signature : Node) (ctx : Context)
  /-- In place of a return type. -/
  | returnType (type : Node) (ctx : Context)
  /-- At the end of a body. `shared` says whether other code stands before the brace on its line. -/
  | body (offset : Nat) (shared : Bool) (level : Nat) (ctx : Context)

/-- A question to a generator. -/
inductive Request where
  | imports (ctx : Context)
  | params (signature : Node) (ctx : Context)
  | returnType (type : Node) (ctx : Context)
  | record (ctx : Context) (level : Nat)
  | block (ctx : Context) (level : Nat)

namespace Site

/-- The questions that a site asks, in order. -/
def requests : Site → List Request
  | params _ signature ctx => [.params signature ctx]
  | returnType type ctx => [.returnType type ctx]
  | body _ _ level ctx => [.record ctx level, .block ctx level]

/-- The edits at a site. -/
def edits (g : Generator) : Site → Except Error (List Edit)
  | params offset signature ctx => do
    return [Edit.insert offset (← g.params signature ctx)]
  | returnType type ctx => do
    return [Edit.replace type.start type.stop (← g.returnType type ctx)]
  | body offset shared level ctx => do
    let record ← g.record ctx level
    let block ← g.block ctx level
    let lead := if shared && !(record.isEmpty && block.isEmpty) then ['\n'] else []
    return [Edit.insert offset (lead ++ record), Edit.insert offset block]

end Site

namespace Patch

/-- The child of a kind that the node cannot be without. -/
def child (n : Node) (kind : Kind) : Except Error Node :=
  match n.firstChild? kind with
  | some c => .ok c
  | none => .error (.incomplete kind)

/-- The sites of a signature. -/
def signatureSites (signature : Node) (ctx : Context) : Except Error (List Site) := do
  let paren ← child signature .openParen
  let front := Site.params paren.stop signature ctx
  match signature.firstChild? .returnTypeDescriptor with
  | none => return [front]
  | some descriptor => return [front, .returnType (← child descriptor .typeDescriptor) ctx]

/-- The site of a block body, in a source that indents by `width`. -/
def bodySites (source : Text) (width : Nat) (body : Node) (ctx : Context) :
    Except Error (List Site) := do
  let brace := (← child body .closeBrace).start
  let lineStart := source.lineStart brace
  let indent := source.lineIndent brace
  let alone := lineStart + indent = brace
  return [.body (if alone then lineStart else brace) (!alone) (indent / width + 1) ctx]

/-- The sites of a resource accessor. Only a block body has one. -/
def resourceSites (source : Text) (width : Nat) (resource : Node) (ctx : Context) :
    Except Error (List Site) := do
  let front ← match resource.firstChild? .functionSignature with
    | none => pure []
    | some signature => signatureSites signature (ctx.push signature)
  let back ← match resource.firstChild? .functionBodyBlock with
    | none => pure []
    | some body => bodySites source width body (ctx.push body)
  return front ++ back

/-- The sites of a service. -/
def serviceSites (source : Text) (width : Nat) (service : Node) (ctx : Context) :
    Except Error (List Site) := do
  let sites ← (service.childrenOf [.resourceAccessorDefinition]).mapM fun r =>
    resourceSites source width r (ctx.push r)
  return sites.flatten

/-- The sites of a module. -/
def moduleSites (source : Text) (width : Nat) (module : Node) (ctx : Context) :
    Except Error (List Site) := do
  let sites ← (module.childrenOf [.serviceDeclaration]).mapM fun s =>
    serviceSites source width s (ctx.push s)
  return sites.flatten

/-- The sites of a tree, whose root may be a part of a module. -/
def sites (tree : Tree) (width : Nat) : Except Error (List Site) :=
  let ctx := Context.root tree.root
  match tree.root.kind with
  | .modulePart => moduleSites tree.source width tree.root ctx
  | .serviceDeclaration => serviceSites tree.source width tree.root ctx
  | .resourceAccessorDefinition => resourceSites tree.source width tree.root ctx
  | .functionSignature => signatureSites tree.root ctx
  | .functionBodyBlock => bodySites tree.source width tree.root ctx
  | _ => .ok []

/-- The questions asked for a tree, in order. Imports come last. -/
def requests (tree : Tree) (width : Nat) : Except Error (List Request) := do
  return (← sites tree width).flatMap Site.requests ++ [.imports (Context.root tree.root)]

/-- The edits that mediate a tree. The insertion of imports is the first of them. -/
def edits (tree : Tree) (g : Generator) (width : Int) : Except Error (List Edit) :=
  if width ≤ 0 then .error (.indentWidth width)
  else do
    let edits ← (← sites tree width.toNat).mapM (Site.edits g)
    let imports ← g.imports (Context.root tree.root)
    return Edit.insert 0 imports :: edits.flatten

/-- The edit that appends a text to a document. -/
def append (d : Document) (text : Text) : List Edit :=
  [Edit.insert d.text.length text]

end Patch

end BalMediation
