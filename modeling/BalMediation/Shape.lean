import BalMediation.Kind
import BalMediation.Token.Lexer

/-!
# Shapes

The tree of a source before offsets: every node spans a range of tokens, given by their numbers.
A shape depends on the lexemes alone, so blanks and comments between them cannot influence it.

Reading a shape fails with a `Fault`: a cause and the number of the token at which it shows. The
number of tokens stands for the end of the source.
-/

namespace BalMediation

/-- What a node carries besides its children. -/
inductive Label where
  /-- Nothing. -/
  | none
  /-- The source text it spans. -/
  | own
  /-- A text of its own. -/
  | name (text : Text)
deriving DecidableEq, Repr

/-- A node that begins with token number `first` and ends before token number `stop`. -/
inductive Shape where
  | node (kind : Kind) (first stop : Nat) (label : Label) (children : List Shape)

/-- Why a source has no syntax tree. -/
inductive Cause where
  | lexical (cause : LexicalCause)
  /-- A delimiter is wanted where another token, or the end of the source, stands. -/
  | expected (spelling : Text) (found : Option Text)
  /-- A bracket that is never closed. -/
  | unbalanced (opening : Text)
  /-- A closing bracket that closes nothing. -/
  | unexpected (closing : Text)
  | annotationName
  | importEnd
  | endOfFile
  | serviceOn
  | serviceOpen
  | serviceEnd
  | functionName
  | pathEnd
  | pathMissing
  | returnType
  | bodyEnd
  | bodyMissing
deriving DecidableEq, Repr

/-- A cause and the number of the token at fault. -/
structure Fault where
  cause : Cause
  token : Nat
deriving DecidableEq, Repr

namespace Cause

/-- The wording of a cause. -/
def message : Cause → Text
  | lexical .unterminatedLiteral => "unterminated string literal".toList
  | lexical .invalidIdentifier => "invalid identifier".toList
  | expected spelling found =>
    "expected '".toList ++ spelling ++ "' but found '".toList ++
      found.getD "end of file".toList ++ "'".toList
  | unbalanced opening => "unbalanced '".toList ++ opening ++ "'".toList
  | unexpected closing => "unexpected '".toList ++ closing ++ "'".toList
  | annotationName => "expected annotation name".toList
  | importEnd => "expected ';' after import".toList
  | endOfFile => "unexpected end of file".toList
  | serviceOn => "expected 'on' in service declaration".toList
  | serviceOpen => "expected '\x7b' to open service body".toList
  | serviceEnd => "unterminated service declaration".toList
  | functionName => "expected function name".toList
  | pathEnd => "expected '(' after resource path".toList
  | pathMissing => "expected resource path".toList
  | returnType => "expected return type".toList
  | bodyEnd => "expected ';' after function body".toList
  | bodyMissing => "expected function body".toList

end Cause

namespace Shape

/-- The kind of the node. -/
def kind : Shape → Kind
  | node k _ _ _ _ => k

/-- The number of its first token. -/
def first : Shape → Nat
  | node _ i _ _ _ => i

/-- The number of the token after its last. -/
def stop : Shape → Nat
  | node _ _ j _ _ => j

/-- What it carries. -/
def label : Shape → Label
  | node _ _ _ l _ => l

/-- Its children in source order. -/
def children : Shape → List Shape
  | node _ _ _ _ cs => cs

/-- A single token, with its text. -/
def leaf (kind : Kind) (i : Nat) : Shape :=
  node kind i (i + 1) .own []

/-- A range of tokens, with the source text from the first to the last. -/
def span (kind : Kind) (i j : Nat) : Shape :=
  node kind i j .own []

end Shape

end BalMediation
