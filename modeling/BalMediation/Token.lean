import BalMediation.Text.Basic

/-!
# Tokens

The words of a service source. A lexeme is a kind and a text; a token is a lexeme with the offset
where it stands. The end of the source counts as a token of its own kind with an empty text.
-/

namespace BalMediation

/-- The kinds of tokens. -/
inductive TokenKind where
  | ident
  | string
  | template
  | number
  | op
  | eof
deriving DecidableEq, Repr

/-- A word of the source without its place. -/
structure Lexeme where
  kind : TokenKind
  text : Text
deriving DecidableEq, Repr

/-- A lexeme and the offset of its first character. -/
structure Token extends Lexeme where
  start : Nat
deriving DecidableEq, Repr

namespace Token

/-- The offset just past the token. -/
def stop (t : Token) : Nat :=
  t.start + t.text.length

/-- The end of a source of the given length. -/
def eof (length : Nat) : Token :=
  ⟨⟨.eof, []⟩, length⟩

end Token

namespace Lexeme

/-- An operator or delimiter with this spelling. -/
def isOp (l : Lexeme) (spelling : Text) : Bool :=
  l.kind = .op && l.text == spelling

/-- An identifier with this spelling. -/
def isWord (l : Lexeme) (spelling : Text) : Bool :=
  l.kind = .ident && l.text == spelling

end Lexeme

end BalMediation
