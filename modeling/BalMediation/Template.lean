import BalMediation.Text.Identifier
import BalMediation.Text.Quoted

/-!
# Templates

Snippets are templates. Double braces print a value by its name; `for` and `endfor` tags repeat
what stands between them for each item of a value; comments vanish. A tag or a comment that stands
alone on its line takes the line with it: the blanks before it and one newline behind it are
dropped. A sign on the inner side of a brace overrules that: a minus drops all blanks on its side
of the tag, a plus keeps them.

These are a part of the template language only. A snippet that uses more of it than names, loops and
comments, such as a condition or a filter, is malformed here although the whole language renders it.

`Template.parse` reads a template in three steps, first its pieces, then the blanks around its tags
and then the nesting of its loops; `Template.render` fills in values, which are never read as
templates again.
-/

namespace BalMediation

/-- Why a template cannot be rendered. -/
inductive TemplateError where
  /-- The template itself is at fault. -/
  | malformed
  /-- A loop gives its item the name of the loop. -/
  | loopAsItem
  /-- A name has no value. -/
  | undefined (name : Text)
  /-- A value of this type has no items. -/
  | notIterable (type : Text)
  /-- A template is asked for the first of its blocks and has none. -/
  | noBlock
deriving DecidableEq, Repr

/-- A part of a template. -/
inductive Part where
  | text (t : Text)
  | print (name : Text)
  | each (item list : Text) (body : List Part)

/-- What a name in a template stands for. -/
inductive Value where
  | text (t : Text)
  | texts (ts : List Text)
  /-- The loop around, in round `index` of `length`. -/
  | loop (index length : Nat)
  /-- The template itself. -/
  | template
  /-- A value that every template knows, as it is printed and by its type. -/
  | builtin (shown type : String)
deriving DecidableEq, Repr

namespace Value

/-- A value as it is printed. A list is shown in brackets, its texts in quotes. -/
def print : Value → Text
  | text t => t
  | texts ts => "[".toList ++ Text.join ", ".toList (ts.map Text.quoted) ++ "]".toList
  | loop index length =>
    "<LoopContext ".toList ++ Text.ofNat index ++ "/".toList ++ Text.ofNat length ++ ">".toList
  | template => "<TemplateReference None>".toList
  | builtin shown _ => shown.toList

/-- The items of a value: those of a list, or the characters of a text. The items of a template
would be its blocks. -/
def items : Value → Except TemplateError (List Text)
  | text t => .ok (t.map ([·]))
  | texts ts => .ok ts
  | loop _ _ => .error (.notIterable "LoopContext".toList)
  | template => .error .noBlock
  | builtin _ type => .error (.notIterable type.toList)

end Value

namespace Template

/-- What a tag is for. -/
inductive Purpose where
  | print
  | control
  | comment
deriving DecidableEq, Repr

/-- What a brace begins together with the character behind it. -/
def Purpose.opened? (c : Char) : Option Purpose :=
  if c = '\x7b' then some .print
  else if c = '%' then some .control
  else if c = '#' then some .comment
  else none

/-- The character that ends a tag together with the brace behind it. -/
def Purpose.closer : Purpose → Char
  | .print => '\x7d'
  | .control => '%'
  | .comment => '#'

/-- What the side of a tag says about the blanks next to it. -/
inductive Sign where
  | absent
  | drop
  | keep
deriving DecidableEq, Repr

/-- The sign that a text begins with, and the text behind it. -/
def Sign.leading : Text → Sign × Text
  | [] => (.absent, [])
  | c :: cs => if c = '-' then (.drop, cs) else if c = '+' then (.keep, cs) else (.absent, c :: cs)

/-- A tag. Its content does not include its signs. -/
structure Tag where
  purpose : Purpose
  opening : Sign
  closing : Sign
  content : Text
deriving DecidableEq, Repr

/-- Reads what stands between the braces of a tag. A printing tag has no plus at its end. -/
def Tag.read (purpose : Purpose) (inner : Text) : Tag :=
  let (opening, inner) := Sign.leading inner
  let (closing, content) := Sign.leading inner.reverse
  if purpose = .print && closing = .keep then ⟨purpose, opening, .absent, inner⟩
  else ⟨purpose, opening, closing, content.reverse⟩

/-- A template cut at its tags. -/
inductive Piece where
  | text (t : Text)
  | tag (g : Tag)
deriving DecidableEq, Repr

/-- Cuts a template at its tags. `open?` is the tag that the text stands in and `seen` holds the
characters since the last cut in reverse. -/
def pieces (open? : Option Purpose) (seen : Text) : Text → Except TemplateError (List Piece)
  | [] => if open?.isNone then .ok [.text seen.reverse] else .error .malformed
  | c :: cs =>
    match open?, cs with
    | none, d :: rest =>
      match if c = '\x7b' then Purpose.opened? d else none with
      | some purpose => (pieces (some purpose) [] rest).map (.text seen.reverse :: ·)
      | none => pieces none (c :: seen) (d :: rest)
    | none, [] => pieces none (c :: seen) []
    | some purpose, '\x7d' :: rest =>
      if c = purpose.closer then
        (pieces none [] rest).map (.tag (.read purpose seen.reverse) :: ·)
      else pieces (some purpose) (c :: seen) ('\x7d' :: rest)
    | some purpose, cs => pieces (some purpose) (c :: seen) cs

/-- Drops the blanks on the last line if they are all of it. `fresh` says whether the text begins
at the start of a line. -/
def dropMargin (fresh : Bool) (t : Text) : Text :=
  let margin := (t.reverse.takeWhile (· != '\n')).reverse
  let lines := t.take (t.length - margin.length)
  if (fresh || !lines.isEmpty) && margin.all Text.isBlank then lines else t

/-- The text in front of a tag. -/
def Tag.textBefore (g : Tag) (fresh : Bool) (t : Text) : Text :=
  match g.opening with
  | .drop => t.dropWhileEnd Text.isBlank
  | .keep => t
  | .absent => if g.purpose = .print then t else dropMargin fresh t

/-- The text behind a tag, and whether it begins at the start of a line. -/
def Tag.textBehind (g : Tag) (t : Text) : Text × Bool :=
  match g.closing with
  | .drop => (t.dropWhile Text.isBlank, false)
  | .keep => (t, false)
  | .absent =>
    match g.purpose, t with
    | .print, t => (t, false)
    | _, '\n' :: t => (t, true)
    | _, t => (t, false)

/-- Drops the blanks that the tags take with them. `last` is the tag in front of the pieces. -/
def tidy (last : Option Tag) : List Piece → List Piece
  | [] => []
  | .tag g :: ps => .tag g :: tidy (some g) ps
  | .text t :: ps =>
    let (t, fresh) := match last with
      | some g => g.textBehind t
      | none => (t, true)
    let t := match ps with
      | .tag g :: _ => g.textBefore fresh t
      | _ => t
    .text t :: tidy last ps

/-- The names that are values by themselves. -/
def constants : List (String × Value) := [
  ("true", .builtin "True" "bool"), ("True", .builtin "True" "bool"),
  ("false", .builtin "False" "bool"), ("False", .builtin "False" "bool"),
  ("none", .builtin "None" "NoneType"), ("None", .builtin "None" "NoneType")]

/-- The names that every template can use. -/
def builtins : List (String × Value) := [
  ("range", .builtin "<class 'range'>" "type"),
  ("dict", .builtin "<class 'dict'>" "type"),
  ("cycler", .builtin "<class 'jinja2.utils.Cycler'>" "type"),
  ("joiner", .builtin "<class 'jinja2.utils.Joiner'>" "type"),
  ("namespace", .builtin "<class 'jinja2.utils.Namespace'>" "type"),
  ("lipsum", .builtin "<function generate_lorem_ipsum>" "function"),
  ("self", .template)]

/-- The name of the loop around. -/
def loopName : Text := "loop".toList

/-- Whether a text can be printed by its name. -/
def isPrintName (t : Text) : Bool :=
  t.isName && t != "not".toList

/-- Whether a text can name the list of a loop. -/
def isListName (t : Text) : Bool :=
  isPrintName t && t != "recursive".toList

/-- Whether a text can name the item of a loop. -/
def isItemName (t : Text) : Bool :=
  t.isName && t != "in".toList && constants.all fun (name, _) => t != name.toList

/-- A loop that is open: its item, its list, and the parts in front of it in reverse. -/
structure Loop where
  item : Text
  list : Text
  before : List Part

/-- Nests the pieces. `done` holds the parts of the innermost open loop in reverse. -/
def nest (loops : List Loop) (done : List Part) : List Piece → Except TemplateError (List Part)
  | [] => if loops.isEmpty then .ok done.reverse else .error .malformed
  | .text t :: ps => nest loops (if t.isEmpty then done else .text t :: done) ps
  | .tag ⟨.comment, _, _, _⟩ :: ps => nest loops done ps
  | .tag ⟨.print, _, _, content⟩ :: ps =>
    let name := content.trim
    if isPrintName name then nest loops (.print name :: done) ps else .error .malformed
  | .tag ⟨.control, _, _, content⟩ :: ps =>
    match content.words with
    | [word, item, preposition, list] =>
      if word = "for".toList && preposition = "in".toList && isItemName item && isListName list then
        nest (⟨item, list, done⟩ :: loops) [] ps
      else .error .malformed
    | [word] =>
      match loops with
      | loop :: outer =>
        if word = "endfor".toList then
          nest outer (.each loop.item loop.list done.reverse :: loop.before) ps
        else .error .malformed
      | [] => .error .malformed
    | _ => .error .malformed

mutual

/-- Whether a loop in a part gives its item the name of the loop. -/
def partNamesLoop : Part → Bool
  | .each item _ body => item == loopName || namesLoop body
  | _ => false

/-- Whether a loop in one of the parts gives its item the name of the loop. -/
def namesLoop : List Part → Bool
  | [] => false
  | p :: ps => partNamesLoop p || namesLoop ps

end

/-- The parts of a template. -/
def parse (t : Text) : Except TemplateError (List Part) := do
  let parts ← nest [] [] (tidy none (← pieces none [] t))
  if namesLoop parts then throw .loopAsItem
  return parts

/-- The value of a name; the latest binding counts. -/
def lookup (values : List (Text × Value)) (name : Text) : Except TemplateError Value :=
  match values.find? (·.1 = name) with
  | some (_, v) => .ok v
  | none =>
    match (constants ++ builtins).find? (·.1.toList = name) with
    | some (_, v) => .ok v
    | none => .error (.undefined name)

mutual

/-- One part with values filled in. -/
def fillPart (values : List (Text × Value)) : Part → Except TemplateError Text
  | .text t => .ok t
  | .print name => (lookup values name).map Value.print
  | .each item list body => do
    let items ← (← lookup values list).items
    let rounds ← items.zipIdx.mapM fun (t, k) =>
      fill ((item, .text t) :: (loopName, .loop (k + 1) items.length) :: values) body
    return rounds.flatten

/-- Parts with values filled in. -/
def fill (values : List (Text × Value)) : List Part → Except TemplateError Text
  | [] => .ok []
  | p :: ps => do
    let first ← fillPart values p
    let rest ← fill values ps
    return first ++ rest

end

/-- The text of a template with values filled in. -/
def render (template : Text) (values : List (Text × Value)) : Except TemplateError Text := do
  fill values (← parse template)

end Template

end BalMediation
