import BalMediation.Console.Emoji
import BalMediation.Console.Literal
import BalMediation.Console.Style
import BalMediation.Text.Digit
import BalMediation.Text.Width

/-!
# Console markup

Console messages carry styles as tags in brackets: `[red]` begins a style and `[/red]` ends it. A
tag begins with a lower-case letter or one of `#`, `/` and `@`; a bracket before anything else is
plain text. An odd number of backslashes in front of a tag makes the tag plain, and of the
backslashes every second one is shown. Names of pictographs between colons are replaced in each
piece of plain text.

`Markup.escape` protects the tags of a text and `Markup.plain` shows a text without its styles.
-/

namespace BalMediation

/-- Why a marked text cannot be shown. -/
inductive MarkupFault where
  /-- A tag closes a style that is not open. -/
  | unmatched
  /-- The arguments of a handler are no literals. -/
  | arguments
  /-- A colour has an empty component. -/
  | emptyComponent
deriving DecidableEq, Repr

namespace Markup

/-- The characters that a tag begins with. -/
def startsTag (c : Char) : Bool :=
  ('a' ≤ c && c ≤ 'z') || c == '#' || c == '/' || c == '@'

/-- Whether the text behind a bracket is a tag: its end comes before another bracket opens. -/
def isTag : Text → Bool
  | [] => false
  | c :: cs => startsTag c && (cs.takeWhile (· != '[')).any (· == ']')

/-- Some backslashes. -/
def slashes (n : Nat) : Text :=
  List.replicate n '\\'

/-- Protects the tags of a text. `pending` counts the backslashes just read and `inside` says
whether the text stands in a tag. -/
def protect (pending : Nat) (inside : Bool) : Text → Text
  | [] => slashes pending
  | c :: cs =>
    if inside then c :: protect 0 (c != ']') cs
    else if c = '\\' then protect (pending + 1) false cs
    else if c = '[' && isTag cs then
      slashes (2 * pending) ++ '\\' :: '[' :: protect 0 true cs
    else slashes pending ++ c :: protect 0 false cs

/-- Protects the tags of a text, and a single backslash at its end. -/
def escape (t : Text) : Text :=
  let shielded := protect 0 false t
  if (slashes 1).isSuffixOf shielded && !(slashes 2).isSuffixOf shielded then shielded ++ ['\\']
  else shielded

/-- A piece of a marked text. -/
inductive Piece where
  | plain (t : Text)
  | tag (t : Text)
deriving DecidableEq, Repr

/-- What a piece of plain text becomes: a backslash before a bracket is dropped, and pictographs
replace their names. -/
def piece (t : Text) : Piece :=
  .plain (Emoji.replace (dropEscapes t))
where
  /-- Drops the backslash before each bracket. -/
  dropEscapes : Text → Text
    | [] => []
    | c :: cs => if c = '\\' && cs.head? = some '[' then dropEscapes cs else c :: dropEscapes cs

/-- Cuts a marked text at its tags. `seen` holds the plain text since the last cut in reverse,
`pending` counts the backslashes behind it, and `tag` holds the tag being read in reverse, with
whether it is shown. -/
def pieces (pending : Nat) (seen : Text) (tag : Option (Bool × Text)) : Text → List Piece
  | [] => [piece (seen.reverse ++ slashes pending)]
  | c :: cs =>
    match tag with
    | some (escaped, t) =>
      if c = ']' then
        (if escaped then piece ('[' :: t.reverse ++ [']']) else .tag t.reverse) ::
          pieces 0 [] none cs
      else pieces 0 [] (some (escaped, c :: t)) cs
    | none =>
      if c = '\\' then pieces (pending + 1) seen none cs
      else if c = '[' && isTag cs then
        piece seen.reverse :: .plain (slashes (pending / 2)) ::
          pieces 0 [] (some (pending % 2 = 1, [])) cs
      else pieces 0 (c :: slashes pending ++ seen) none cs

/-- A style that is open: its name and what stands behind an equals sign. -/
structure OpenStyle where
  name : Text
  parameters : Text
deriving DecidableEq, Repr

/-- Cuts a tag at its first equals sign. -/
def cutTag (t : Text) : Text × Text :=
  (t.takeWhile (· != '='), (t.dropWhile (· != '=')).drop 1)

/-- A character of the name of a handler. -/
def isHandlerPart (c : Char) : Bool :=
  Text.isLetter c || Text.isNumeral c || c == '_' || c == '.'

/-- The arguments of a handler: what stands in parentheses behind its name, or the whole text. -/
def handlerArguments (t : Text) : Text :=
  let rest := t.trim.dropWhile isHandlerPart
  if rest.isEmpty then "()".toList
  else if rest.head? = some '(' && rest.getLast? = some ')' && !rest.contains '\n' then rest
  else t.trim

/-- Whether a style can be closed: the arguments of a handler have to be literals. -/
def OpenStyle.canClose (s : OpenStyle) : Bool :=
  s.name.head? != some '@' || s.parameters.isEmpty ||
    Literal.isLiteral (handlerArguments s.parameters)

/-- The normal name of a style. -/
def styleName (t : Text) : Except MarkupFault Text :=
  match Style.normalize? t with
  | some name => .ok name
  | none => .error .emptyComponent

/-- The style that a closing tag ends, and the styles that stay open. `styles` begins with the
innermost one, which a tag without a name ends. -/
def close (styles : List OpenStyle) (closing : Text) :
    Except MarkupFault (OpenStyle × List OpenStyle) := do
  if closing.trim.isEmpty then
    match styles with
    | [] => throw .unmatched
    | s :: outer => return (s, outer)
  else
    let name ← styleName closing.trim
    match styles.find? (·.name = name) with
    | none => throw .unmatched
    | some s => return (s, styles.erase s)

/-- Puts the plain pieces together. `styles` are the open styles, innermost first. -/
def assemble (styles : List OpenStyle) : List Piece → Except MarkupFault Text
  | [] => .ok []
  | .plain t :: ps => do
    let rest ← assemble styles ps
    return t ++ rest
  | .tag t :: ps => do
    let (head, parameters) := cutTag t
    match head with
    | '/' :: closing =>
      let (s, outer) ← close styles closing
      if s.canClose then assemble outer ps else throw .arguments
    | _ =>
      let name ← styleName head
      assemble (⟨name, parameters⟩ :: styles) ps

/-- The characters that are never shown: bell, backspace, vertical tab, form feed and carriage
return. -/
def isSilent (c : Char) : Bool :=
  c.toNat == 7 || c.toNat == 8 || c.toNat == 11 || c.toNat == 12 || c.toNat == 13

/-- The distance between tab stops. -/
def tabSize : Nat := 8

/-- Replaces a tab behind a part of a line by a space, and more spaces up to the next tab stop. -/
def fillTab (part : Text) : Text :=
  let part := part ++ [' ']
  part ++ List.replicate ((tabSize - part.width % tabSize) % tabSize) ' '

/-- Replaces the tabs of a line by spaces. -/
def expandTabs (line : Text) : Text :=
  let parts := line.splitOn '\t'
  (parts.dropLast.map fillTab).flatten ++ parts.getLast?.getD []

/-- A marked text as it is shown. -/
def plain (t : Text) : Except MarkupFault Text := do
  let shown ← assemble [] (pieces 0 [] none t)
  let lines := (shown.filter (!isSilent ·)).splitOn '\n'
  return Text.join ['\n'] (lines.map expandTabs)

/-- A text in a style. -/
def styled (style : String) (t : Text) : Text :=
  '[' :: style.toList ++ [']'] ++ t ++ '[' :: '/' :: style.toList ++ [']']

end Markup

end BalMediation
