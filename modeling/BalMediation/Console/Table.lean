import BalMediation.Console.Wrap

/-!
# Tables

A table with a heading, ruled with box characters. Columns are as wide as their widest cell and
cells are aligned to the left. If the table is wider than the console, its widest column gives way
and the cells in it take several lines.
-/

namespace BalMediation.Table

/-- The width of each column if there is room for all of them. -/
def naturalWidths (heading : List Text) (rows : List (List Text)) : List Nat :=
  heading.mapIdx fun k title =>
    (rows.map fun row => Text.width (row[k]?.getD [])).foldl max title.width

/-- Takes columns away from the first number that equals `widest`. -/
def shrink (excess widest : Nat) : List Nat → List Nat
  | [] => []
  | w :: ws => if w = widest then (w - excess) :: ws else w :: shrink excess widest ws

/-- The width of each column. A cell has a blank on both sides, and there is a bar at each end and
between neighbours. -/
def columnWidths (heading : List Text) (rows : List (List Text)) : List Nat :=
  let widths := naturalWidths heading rows
  let total := widths.foldl (· + · + 3) 1
  shrink (total - Wrap.consoleWidth) (widths.foldl max 0) widths

/-- A horizontal rule. -/
def rule (left fill cross right : Char) (widths : List Nat) : Text :=
  [left] ++ Text.join [cross] (widths.map fun w => List.replicate (w + 2) fill) ++ [right, '\n']

/-- One line of a row. -/
def line (bar : Char) (widths : List Nat) (cells : List Text) : Text :=
  let padded := (widths.zip cells).map fun (w, cell) =>
    [' '] ++ cell ++ List.replicate (w - cell.width) ' ' ++ [' ']
  [bar] ++ Text.join [bar] padded ++ [bar, '\n']

/-- A row of cells. -/
def row (bar : Char) (widths : List Nat) (cells : List Text) : Text :=
  let columns := (widths.zip cells).map fun (w, cell) => Wrap.lines w .ellipsis cell
  let height := (columns.map List.length).foldl max 0
  (List.range height).flatMap fun k =>
    line bar widths (columns.map fun lines => lines[k]?.getD [])

/-- The table, line by line. -/
def render (heading : List Text) (rows : List (List Text)) : Text :=
  let widths := columnWidths heading rows
  rule '┏' '━' '┳' '┓' widths ++ row '┃' widths heading ++ rule '┡' '━' '╇' '┩' widths ++
    rows.flatMap (row '│' widths) ++ rule '└' '─' '┴' '┘' widths

end BalMediation.Table
