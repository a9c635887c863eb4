import BalMediation.Token.Lexer

/-!
# Resource paths

The path of a resource accessor as it is requested at run time: `items/[string id]` becomes
`/items/${id}`, and a rest parameter is joined with slashes again. A lone dot is the root and
leaves nothing.
-/

namespace BalMediation

namespace Text

/-- Removes the backslash of each escape. A backslash before a newline, or at the end, escapes
nothing and stays. -/
def dropEscapes : Text → Text
  | [] => []
  | c :: cs =>
    if c = '\\' then
      match cs with
      | [] => [c]
      | d :: rest => if d = '\n' then c :: d :: dropEscapes rest else d :: dropEscapes rest
    else c :: dropEscapes cs

/-- The name an identifier stands for: without leading quotes and without escapes. -/
def unescape (identifier : Text) : Text :=
  dropEscapes (identifier.dropWhile (· == '\''))

end Text

namespace ResourcePath

/-- Cuts a path at the slashes outside of brackets. `depth` is the number of brackets opened less
the number closed. -/
def cut (depth : Int) : Text → List Text
  | [] => [[]]
  | c :: cs =>
    let depth := if c = '[' then depth + 1 else if c = ']' then depth - 1 else depth
    if c = '/' && depth = 0 then [] :: cut depth cs
    else match cut depth cs with
      | [] => [[c]]
      | piece :: pieces => (c :: piece) :: pieces

/-- The segments of a path, without the blanks around them and without empty ones. -/
def segments (path : Text) : List Text :=
  ((cut 0 path).map Text.trim).filter (!·.isEmpty)

/-- The characters of a path parameter's name. -/
def isNameChar (c : Char) : Bool :=
  Lexer.isIdentPart c || c == '\'' || c == '\\'

/-- The name of a path parameter: the last run of name characters, if nothing but blanks follows
it, else the whole text. -/
def parameterName (parameter : Text) : Text :=
  let run := ((Text.dropWhileEnd Text.isBlank parameter).reverse.takeWhile isNameChar).reverse
  if run.isEmpty then Text.trim parameter else run

/-- What stands between the brackets of a path parameter; nothing for another segment. -/
def parameter? (segment : Text) : Option Text :=
  match segment with
  | '[' :: rest => if rest.getLast? = some ']' then some rest.dropLast else none
  | _ => none

/-- A segment as it is requested. -/
def renderSegment (segment : Text) : Text :=
  match parameter? segment with
  | some parameter =>
    let name := parameterName parameter
    if Text.includes "...".toList parameter then
      "$\x7bstring:'join(\"/\", ...".toList ++ name ++ ")\x7d".toList
    else "$\x7b".toList ++ name ++ "\x7d".toList
  | none => Text.unescape segment

/-- A path as it is requested. -/
def render (path : Text) : Text :=
  '/' :: Text.join ['/'] (((segments path).filter (· != ['.'])).map renderSegment)

end ResourcePath

end BalMediation
