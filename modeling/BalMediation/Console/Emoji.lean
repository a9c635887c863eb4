import BalMediation.Console.Emoji.Names
import BalMediation.Text.Lowercase

/-!
# Pictographs by name

In a console message a name between colons stands for a pictograph, so `:key:` shows a key. The
case of the letters does not matter. A name may end in `-text` or `-emoji`, which asks for the form
of the pictograph without or with colours. What is no name stays as it is, and its second colon
begins no other name.
-/

namespace BalMediation.Emoji

/-- The value of hexadecimal digits. -/
def hexValue (t : Text) : Nat :=
  t.foldl (fun n c => 16 * n + (if c.isDigit then c.toNat - 0x30 else c.toNat - 0x57)) 0

/-- The characters with code points in hexadecimal and a dash between neighbours. -/
def characters (codes : Text) : Text :=
  (codes.splitOn '-').map fun code => Char.ofNat (hexValue code)

/-- The flag of a region with two letters. -/
def flag (letters : Text) : Text :=
  letters.map fun c => Char.ofNat (0x1f1e6 + (c.toNat - 'a'.toNat))

/-- Pairs the words of a line. -/
def pairs : List Text → List (Text × Text)
  | name :: value :: rest => (name, value) :: pairs rest
  | _ => []

/-- The names of a table, each with what `f` makes of the word behind it. -/
def entries (f : Text → Text) (lines : List String) : List (Text × Text) :=
  lines.flatMap fun line =>
    (pairs (Text.words line.toList)).map fun (name, value) => (name, f value)

/-- Names and the characters they stand for. -/
def plain : List (Text × Text) := entries characters plainNames

/-- The names that can be had in five skin tones. -/
def toned : List (Text × Text) := entries characters tonedNames

/-- The names of regions and their flags. -/
def regions : List (Text × Text) := entries flag regionNames

/-- How a name in a skin tone ends, and the character of the tone. -/
def tones : List (Text × Char) := [
  ("_light_skin_tone".toList, Char.ofNat 0x1f3fb),
  ("_medium-light_skin_tone".toList, Char.ofNat 0x1f3fc),
  ("_medium_skin_tone".toList, Char.ofNat 0x1f3fd),
  ("_medium-dark_skin_tone".toList, Char.ofNat 0x1f3fe),
  ("_dark_skin_tone".toList, Char.ofNat 0x1f3ff)]

/-- The selector of the form with colours. -/
def colourForm : Char := '\ufe0f'

/-- The selector of the form without colours. -/
def textForm : Char := '\ufe0e'

/-- Puts a skin tone behind the first character, in place of a selector. -/
def inTone (tone : Char) : Text → Text
  | [] => []
  | c :: cs => c :: tone :: (if cs.head? = some colourForm then cs.tail else cs)

/-- What is left of a text that ends in `ending`. -/
def withoutEnding? (ending t : Text) : Option Text :=
  if ending.isSuffixOf t then some (t.take (t.length - ending.length)) else none

/-- How the long name of a flag begins. -/
def flagMark : Text := "flag_for_".toList

/-- The pictograph of a name in lower case. -/
def find? (name : Text) : Option Text :=
  List.lookup name plain <|> List.lookup name toned <|>
    (tones.findSome? fun (ending, tone) =>
      ((withoutEnding? ending name).bind (List.lookup · toned)).map (inTone tone)) <|>
    List.lookup (if flagMark.isPrefixOf name then name.drop flagMark.length else name) regions

/-- What the text between two colons shows. -/
def shown (code : Text) : Text :=
  let (name, form) :=
    match withoutEnding? "-emoji".toList code, withoutEnding? "-text".toList code with
    | some name, _ => (name, [colourForm])
    | none, some name => (name, [textForm])
    | none, none => (code, [])
  match find? name.lower with
  | some pictograph => pictograph ++ form
  | none => ':' :: code ++ [':']

/-- Replaces names by pictographs. `seen` holds in reverse what follows a colon that may begin a
name. -/
def replaceFrom (seen : Option Text) : Text → Text
  | [] => match seen with
    | some name => ':' :: name.reverse
    | none => []
  | c :: cs =>
    match seen with
    | none => if c = ':' then replaceFrom (some []) cs else c :: replaceFrom none cs
    | some name =>
      if c = ':' then shown name.reverse ++ replaceFrom none cs
      else if Text.isBlank c then ':' :: name.reverse ++ c :: replaceFrom none cs
      else replaceFrom (some (c :: name)) cs

/-- A text with pictographs in place of their names. -/
def replace (t : Text) : Text :=
  replaceFrom none t

end BalMediation.Emoji
