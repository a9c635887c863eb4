import BalMediation.Token

/-!
# Brackets

The four pairs of brackets. `{|` and `|}` delimit exclusive records and are brackets of their own:
neither closes, nor is closed by, a plain brace.
-/

namespace BalMediation

/-- A pair of brackets. -/
inductive Bracket where
  | paren
  | square
  | brace
  | exclusive
deriving DecidableEq, Repr

namespace Bracket

/-- The opening half. -/
def opening : Bracket → Text
  | paren => ['(']
  | square => ['[']
  | brace => ['\x7b']
  | exclusive => ['\x7b', '|']

/-- The closing half. -/
def closing : Bracket → Text
  | paren => [')']
  | square => [']']
  | brace => ['\x7d']
  | exclusive => ['|', '\x7d']

/-- All pairs. -/
def all : List Bracket := [paren, square, brace, exclusive]

end Bracket

namespace Lexeme

/-- The bracket a lexeme opens, if any. -/
def opens? (l : Lexeme) : Option Bracket :=
  Bracket.all.find? fun b => l.isOp b.opening

/-- The bracket a lexeme closes, if any. -/
def closes? (l : Lexeme) : Option Bracket :=
  Bracket.all.find? fun b => l.isOp b.closing

end Lexeme

end BalMediation
