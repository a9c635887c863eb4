import BalMediation.Fragment
import BalMediation.Snippet
import BalMediation.Text.Uppercase

/-!
# Fragments from snippets

The generator that renders snippets around named hooks. Inflow hooks run before the request is
forwarded to the backend, outflow hooks on the backend's response, each in the given order.
-/

namespace BalMediation

/-- What the generator needs to know. -/
structure Hooks where
  inflow : List Text
  outflow : List Text
  returnType : Option Text
  indentWidth : Int

namespace Fragment

/-- The modules that the injected code refers to. -/
def requiredImports : List Text := ["ballerina/http".toList]

/-- The type of a request parameter. -/
def requestType : Text := "http:Request".toList

/-- The name of the request parameter that is added where there is none. -/
def requestParam : Text := "incomingRequest".toList

/-- The variable that holds the backend's response. -/
def responseVar : Text := "backendResponse".toList

/-- The variable that holds the context record. -/
def contextVar : Text := "mediationCtx".toList

/-- The name that a parameter gives to a request, if its last words are the request type and a
name. -/
def requestName? (parameter : Text) : Option Text :=
  match parameter.words.reverse with
  | name :: type :: _ => if type = requestType then some name else none
  | _ => none

/-- The name of the first request parameter of a signature. -/
def requestParameter? (signature : Node) : Option Text :=
  (signature.childrenOf [.parameter]).findSome? fun p => requestName? p.text

/-- The greatest number that counts the characters of a text. -/
def maxCount : Int := 0x7fffffffffffffff

/-- The widest margin that memory can hold. Indenting itself knows no such limit: the number is
assumed for the machine that the program runs on. -/
def maxMargin : Int := 100000000000

/-- A line behind a margin; a blank line gets none. -/
def indentLine (margin : Nat) (line : Text) : Text :=
  if line.all Text.isBlank then line else List.replicate margin ' ' ++ line

/-- Indents each line that is not blank. The lines end with one newline, whatever newlines ended
the text. A margin can be too wide to be counted or held, also where no line needs it. -/
def indent (width level : Int) (t : Text) : Except Error Text :=
  let margin := width * level
  if margin > maxCount || margin < -maxCount - 1 then .error .marginUncountable
  else if margin > maxMargin then .error .marginTooWide
  else
    let lines := (Text.dropWhileEnd (· == '\n') t).splitOn '\n'
    .ok (Text.join ['\n'] (lines.map (indentLine margin.toNat)) ++ ['\n'])

/-- A snippet with values filled in. -/
def renderSnippet (snippets : Snippets) (name : Text) (values : List (Text × Value)) :
    Except Error Text := do
  (Template.render (← snippets name) values).mapError .template

/-- The name of the request in a resource: that of its own parameter, or the one that is added. -/
def requestName (ctx : Context) : Text :=
  (ctx.signature?.bind requestParameter?).getD requestParam

/-- Import declarations for the required modules that are not imported. -/
def imports (snippets : Snippets) (ctx : Context) : Except Error Text :=
  let missing := requiredImports.filter fun m => !ctx.importedModules.contains m
  if missing.isEmpty then .ok []
  else renderSnippet snippets "imports.bal".toList [("modules".toList, .texts missing)]

/-- A request parameter, unless the signature has one. -/
def params (signature : Node) : Text :=
  if (requestParameter? signature).isSome then []
  else
    requestType ++ [' '] ++ requestParam ++
      (if (signature.childrenOf [.parameter]).isEmpty then [] else ", ".toList)

/-- The record that describes the request to the hooks. -/
def record (snippets : Snippets) (width : Int) (ctx : Context) (level : Int) :
    Except Error Text := do
  let values := [
    ("context".toList, Value.text contextVar),
    ("method".toList, .text ctx.resourceMethod.upper),
    ("resource_path".toList, .text ctx.resourcePath),
    ("service_path".toList, .text ctx.servicePath)]
  indent width level (← renderSnippet snippets "context_record.bal".toList values)

/-- The call of one inflow hook. -/
def inflowCall (snippets : Snippets) (request hook : Text) : Except Error Text := do
  let values := [
    ("hook".toList, Value.text hook),
    ("context".toList, .text contextVar),
    ("request".toList, .text request)]
  return (← renderSnippet snippets "inflow_template.bal".toList values).trim

/-- The call of one outflow hook. -/
def outflowCall (snippets : Snippets) (hook : Text) : Except Error Text := do
  let values := [
    ("hook".toList, Value.text hook),
    ("context".toList, .text contextVar),
    ("response".toList, .text responseVar)]
  return (← renderSnippet snippets "outflow_template.bal".toList values).trim

/-- The block that calls the hooks around one forward. -/
def block (snippets : Snippets) (hooks : Hooks) (ctx : Context) (level : Int) :
    Except Error Text := do
  let request := requestName ctx
  let inflowCalls ← hooks.inflow.mapM (inflowCall snippets request)
  let outflowCalls ← hooks.outflow.mapM (outflowCall snippets)
  let values := [
    ("context".toList, Value.text contextVar),
    ("request".toList, .text request),
    ("response".toList, .text responseVar),
    ("inflow_calls".toList, .texts inflowCalls),
    ("outflow_calls".toList, .texts outflowCalls)]
  let text ← renderSnippet snippets "mediation_block.bal".toList values
  indent hooks.indentWidth level text

end Fragment

/-- The generator that renders snippets. -/
def Generator.templated (snippets : Snippets) (hooks : Hooks) : Generator where
  imports := Fragment.imports snippets
  params signature _ := .ok (Fragment.params signature)
  returnType type _ := .ok (hooks.returnType.getD type.text)
  record := Fragment.record snippets hooks.indentWidth
  block := Fragment.block snippets hooks

end BalMediation
