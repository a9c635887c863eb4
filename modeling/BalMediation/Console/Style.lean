import BalMediation.Text.Lowercase

/-!
# Styles

A style is a list of words: attributes such as `bold`, each of them possibly behind `not`, a
colour, `on` and a background colour, `link` and an address. Several texts name the same style, and
`Style.normalize` gives the one that stands for all of them. A text that names no style stands for
itself in lower case.
-/

namespace BalMediation

/-- What a style says. A later attribute comes first in the list. -/
structure Style where
  attributes : List (String × Bool) := []
  colour : Option Text := none
  background : Option Text := none
  link : Option Text := none
deriving DecidableEq, Repr

namespace Style

/-- The attributes in the order in which they are written. -/
def attributeNames : List String := [
  "bold", "dim", "italic", "underline", "blink", "blink2", "reverse", "conceal", "strike",
  "underline2", "frame", "encircle", "overline"]

/-- The short names of attributes. -/
def shortNames : List (String × String) := [
  ("b", "bold"), ("d", "dim"), ("i", "italic"), ("u", "underline"), ("r", "reverse"),
  ("c", "conceal"), ("s", "strike"), ("uu", "underline2"), ("o", "overline")]

/-- The attribute that a word names. -/
def attribute? (word : Text) : Option String :=
  let word := String.ofList word
  if attributeNames.contains word then some word else List.lookup word shortNames

/-- The names of colours. -/
def colourNames : List String := [
  "aquamarine1 aquamarine3 black blue blue1 blue3 blue_violet bright_black bright_blue bright_cyan",
  "bright_green bright_magenta bright_red bright_white bright_yellow cadet_blue chartreuse1",
  "chartreuse2 chartreuse3 chartreuse4 cornflower_blue cornsilk1 cyan cyan1 cyan2 cyan3 dark_blue",
  "dark_cyan dark_goldenrod dark_green dark_khaki dark_magenta dark_olive_green1 dark_olive_green2",
  "dark_olive_green3 dark_orange dark_orange3 dark_red dark_sea_green dark_sea_green1",
  "dark_sea_green2 dark_sea_green3 dark_sea_green4 dark_slate_gray1 dark_slate_gray2",
  "dark_slate_gray3 dark_turquoise dark_violet deep_pink1 deep_pink2 deep_pink3 deep_pink4",
  "deep_sky_blue1 deep_sky_blue2 deep_sky_blue3 deep_sky_blue4 dodger_blue1 dodger_blue2",
  "dodger_blue3 gold1 gold3 gray0 gray100 gray11 gray15 gray19 gray23 gray27 gray3 gray30 gray35",
  "gray37 gray39 gray42 gray46 gray50 gray53 gray54 gray58 gray62 gray63 gray66 gray69 gray7",
  "gray70 gray74 gray78 gray82 gray84 gray85 gray89 gray93 green green1 green3 green4 green_yellow",
  "grey0 grey100 grey11 grey15 grey19 grey23 grey27 grey3 grey30 grey35 grey37 grey39 grey42",
  "grey46 grey50 grey53 grey54 grey58 grey62 grey63 grey66 grey69 grey7 grey70 grey74 grey78",
  "grey82 grey84 grey85 grey89 grey93 honeydew2 hot_pink hot_pink2 hot_pink3 indian_red",
  "indian_red1 khaki1 khaki3 light_coral light_cyan1 light_cyan3 light_goldenrod1 light_goldenrod2",
  "light_goldenrod3 light_green light_pink1 light_pink3 light_pink4 light_salmon1 light_salmon3",
  "light_sea_green light_sky_blue1 light_sky_blue3 light_slate_blue light_slate_gray",
  "light_slate_grey light_steel_blue light_steel_blue1 light_steel_blue3 light_yellow3 magenta",
  "magenta1 magenta2 magenta3 medium_orchid medium_orchid1 medium_orchid3 medium_purple",
  "medium_purple1 medium_purple2 medium_purple3 medium_purple4 medium_spring_green",
  "medium_turquoise medium_violet_red misty_rose1 misty_rose3 navajo_white1 navajo_white3",
  "navy_blue orange1 orange3 orange4 orange_red1 orchid orchid1 orchid2 pale_green1 pale_green3",
  "pale_turquoise1 pale_turquoise4 pale_violet_red1 pink1 pink3 plum1 plum2 plum3 plum4 purple",
  "purple3 purple4 red red1 red3 rosy_brown royal_blue1 salmon1 sandy_brown sea_green1 sea_green2",
  "sea_green3 sky_blue1 sky_blue2 sky_blue3 slate_blue1 slate_blue3 spring_green1 spring_green2",
  "spring_green3 spring_green4 steel_blue steel_blue1 steel_blue3 tan thistle1 thistle3 turquoise2",
  "turquoise4 violet wheat1 wheat4 white yellow yellow1 yellow2 yellow3 yellow4"]

/-- The words in `colourNames`, and the colour of the terminal itself. -/
def colours : List Text :=
  "default".toList :: colourNames.flatMap fun line => Text.words line.toList

/-- What stands in parentheses behind a word. -/
def argument? (word : String) (t : Text) : Option Text :=
  let opening := word.toList ++ ['(']
  if opening.isPrefixOf t && t.getLast? = some ')' then
    some ((t.drop opening.length).dropLast)
  else none

/-- The value of decimal digits. -/
def decimal (t : Text) : Nat :=
  t.foldl (fun n c => 10 * n + (c.toNat - '0'.toNat)) 0

/-- A digit of a colour in hexadecimal. -/
def isHexDigit (c : Char) : Bool :=
  c.isDigit || ('a' ≤ c && c ≤ 'f')

/-- Whether a text in lower case is a colour. Three components of which one is empty are neither. -/
def isColour? (t : Text) : Option Bool :=
  if colours.contains t then some true
  else match argument? "rgb" t, argument? "color" t, t with
    | some components, _, _ =>
      if !components.isEmpty && components.all fun c => c.isDigit || c == ',' then
        let parts := components.splitOn ','
        if parts.length ≠ 3 then some false
        else if parts.any List.isEmpty then none
        else some (parts.all fun part => decimal part ≤ 255)
      else some false
    | none, some number, _ =>
      some (!number.isEmpty && number.length ≤ 3 && number.all Char.isDigit && decimal number ≤ 255)
    | none, none, '#' :: digits => some (digits.length = 6 && digits.all isHexDigit)
    | none, none, _ => some false

/-- How a text reads as a style. -/
inductive Reading where
  | style (s : Style)
  /-- The text names no style. -/
  | unknown
  /-- A colour has an empty component. -/
  | emptyComponent
deriving DecidableEq, Repr

/-- Reads the words of a style; `s` is what the words before have said. -/
def read (s : Style) : List Text → Reading
  | [] => .style s
  | first :: rest =>
    let word := first.lower
    if word = "on".toList then
      match rest with
      | [] => .unknown
      | next :: rest =>
        match isColour? next.lower with
        | some true => read { s with background := some next.lower } rest
        | some false => .unknown
        | none => .emptyComponent
    else if word = "not".toList then
      match rest with
      | [] => .unknown
      | next :: rest =>
        match attribute? next with
        | some name => read { s with attributes := (name, false) :: s.attributes } rest
        | none => .unknown
    else if word = "link".toList then
      match rest with
      | [] => .unknown
      | next :: rest => read { s with link := some next } rest
    else
      match attribute? word with
      | some name => read { s with attributes := (name, true) :: s.attributes } rest
      | none =>
        match isColour? word with
        | some true => read { s with colour := some word } rest
        | some false => .unknown
        | none => .emptyComponent

/-- A style as it is written: attributes in their order, the colours and the link. -/
def toText (s : Style) : Text :=
  let attributes := attributeNames.filterMap fun name =>
    (List.lookup name s.attributes).map fun on =>
      if on then name.toList else "not ".toList ++ name.toList
  let words := attributes ++ s.colour.toList ++
    (s.background.map ("on ".toList ++ ·)).toList ++ (s.link.map ("link ".toList ++ ·)).toList
  if words.isEmpty then "none".toList else Text.join [' '] words

/-- The text that stands for all texts of a style; nothing if a colour has an empty component. -/
def normalize? (t : Text) : Option Text :=
  if t.trim = "none".toList then some "none".toList
  else match read {} t.words with
    | .style s => some s.toText
    | .unknown => some t.trim.lower
    | .emptyComponent => none

end Style

end BalMediation
