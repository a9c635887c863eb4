import BalMediation.Text.Width

/-!
# Lines of a console

A line that is wider than its place is cut in front of a word that does not fit. A word that is
wider than a whole line is folded over several lines, or it is cropped and ends in an ellipsis.
Blanks beyond the end of a line are dropped.
-/

namespace BalMediation.Wrap

/-- The columns of the console. The number is assumed: a console that has fewer breaks lines and
cuts cells that this one shows whole. -/
def consoleWidth : Nat := 10000

/-- What becomes of a word that is wider than a line. -/
inductive Overflow where
  | fold
  | ellipsis
deriving DecidableEq, Repr

/-- Puts a character in front of groups, each of which ends in blanks. -/
def addToGroups (c : Char) : List Text → List Text
  | [] => [[c]]
  | group :: groups =>
    if Text.isBlank c && !group.head?.any Text.isBlank then [c] :: group :: groups
    else (c :: group) :: groups

/-- The words of a line, each with the blanks behind it and the first one also with those before
it. A line of blanks has none. -/
def words (line : Text) : List Text :=
  match line.foldr addToGroups [] with
  | [] => []
  | first :: rest =>
    if first.head?.any Text.isBlank then
      match rest with
      | [] => []
      | second :: rest => (first ++ second) :: rest
    else first :: rest

/-- Cuts a text into pieces that fit. `used` columns are taken by `seen`, which is in reverse. -/
def chop (width used : Nat) (seen : Text) : Text → List Text
  | [] => [seen.reverse]
  | c :: cs =>
    let n := Text.charWidth c
    if used + n > width then seen.reverse :: chop width n [c] cs
    else chop width (used + n) (c :: seen) cs

/-- Lines while they are filled: those done, the last one first, the characters of the current one,
the last one first, and its columns. -/
structure Filling where
  done : List Text := []
  current : Text := []
  columns : Nat := 0

namespace Filling

/-- Begins a new line with some text, unless the current one is empty. -/
def startLine (f : Filling) (t : Text) : Filling :=
  ⟨if f.current.isEmpty then f.done else f.current.reverse :: f.done, t.reverse, t.width⟩

/-- Places a word. -/
def add (width : Nat) (overflow : Overflow) (f : Filling) (word : Text) : Filling :=
  let n := (word.dropWhileEnd Text.isBlank).width
  if f.columns + n ≤ width then
    { f with current := word.reverse ++ f.current, columns := f.columns + word.width }
  else if n > width && overflow = .fold then (chop width 0 [] word).foldl startLine f
  else f.startLine word

/-- All lines. -/
def lines (f : Filling) : List Text :=
  (f.current.reverse :: f.done).reverse

end Filling

/-- Drops blanks at the end of a line beyond a number of characters. -/
def dropExcess (width : Nat) (line : Text) : Text :=
  let blanks := line.length - (line.dropWhileEnd Text.isBlank).length
  line.take (line.length - min blanks (line.length - width))

/-- The beginning of a text that fits; a space fills the place of half a character. -/
def takeColumns (n : Nat) : Text → Text
  | [] => []
  | c :: cs =>
    let w := Text.charWidth c
    if w ≤ n then c :: takeColumns (n - w) cs else List.replicate n ' '

/-- A line that fits. -/
def crop (width : Nat) (overflow : Overflow) (line : Text) : Text :=
  if line.width ≤ width then line
  else match overflow with
    | .fold => takeColumns width line
    | .ellipsis => takeColumns (width - 1) line ++ ['…']

/-- The lines that a line is shown as. -/
def lines (width : Nat) (overflow : Overflow) (line : Text) : List Text :=
  let cut := match words line with
    | [] => [line]
    | ws => (ws.foldl (Filling.add width overflow) {}).lines
  cut.map fun line => crop width overflow (dropExcess width line)

/-- A text as a console shows it. -/
def text (t : Text) : Text :=
  Text.join ['\n'] ((t.splitOn '\n').flatMap (lines consoleWidth .fold))

end BalMediation.Wrap
