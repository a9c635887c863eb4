import BalMediation.Text.Basic

/-!
# Positions

Rows and columns of a text, both counted from zero. Only a newline starts a row. `Text.locate`
walks the text once; `Text.lineStart` looks back from the offset for the last newline.
-/

namespace BalMediation

/-- A place in a text by row and column. -/
structure Position where
  row : Nat
  column : Nat
deriving DecidableEq, Repr

namespace Text

/-- The row and column `n` characters further, from a given row and column. -/
def locateFrom (row column : Nat) : Text → Nat → Position
  | _, 0 => ⟨row, column⟩
  | [], n + 1 => ⟨row, column + (n + 1)⟩
  | c :: cs, n + 1 =>
    if c = '\n' then locateFrom (row + 1) 0 cs n else locateFrom row (column + 1) cs n

/-- The row and column of an offset. An offset past the end lies on the last row. -/
def locate (t : Text) (offset : Nat) : Position :=
  locateFrom 0 0 t offset

/-- The offset of the first character on the line that holds `offset`. -/
def lineStart (t : Text) (offset : Nat) : Nat :=
  let before := t.take offset
  before.length - (before.reverse.takeWhile (· != '\n')).length

/-- The number of spaces and tabs that open the line that holds `offset`. -/
def lineIndent (t : Text) (offset : Nat) : Nat :=
  ((t.drop (t.lineStart offset)).takeWhile fun c => c == ' ' || c == '\t').length

end Text

end BalMediation
