import BalMediation.Token
import BalMediation.Text.Letter
import BalMediation.Text.Digit

/-!
# Reading tokens

`Text.scan` cuts a source into tokens. Between tokens stand spaces, tabs, carriage returns and
newlines, and comments, which begin with `#` or `//` and run up to the next newline.

Each kind of token has a function that says how many characters of the source belong to it; the
token is that `take` of the source and reading goes on with the `drop`. So nothing is copied
between the source and the tokens, and a token never ends before its first character.
-/

namespace BalMediation

/-- Why a source cannot be cut into tokens. -/
inductive LexicalCause where
  /-- A string or template literal without its closing quote. -/
  | unterminatedLiteral
  /-- A quote or backslash that begins an identifier and is followed by nothing of it. -/
  | invalidIdentifier
deriving DecidableEq, Repr

/-- A lexical cause and the offset where the token at fault begins. -/
structure LexicalFault where
  cause : LexicalCause
  offset : Nat
deriving DecidableEq, Repr

namespace Lexer

/-- The characters that separate tokens. -/
def isSpace (c : Char) : Bool :=
  c == ' ' || c == '\t' || c == '\r' || c == '\n'

/-- Whether a comment begins here. -/
def startsComment : Text → Bool
  | '#' :: _ => true
  | '/' :: '/' :: _ => true
  | _ => false

/-- The characters that can begin an identifier. -/
def isIdentStart (c : Char) : Bool :=
  Text.isLetter c || c == '_' || c == '\'' || c == '\\'

/-- The characters that can continue an identifier or a number. -/
def isIdentPart (c : Char) : Bool :=
  Text.isLetter c || Text.isNumeral c || c == '_'

/-- Whether a text begins with a digit. -/
def startsDigit : Text → Bool
  | [] => false
  | c :: _ => Text.isDigit c

/-- How many characters continue a number: letters, numerals and underscores, and a point if a
digit follows it. -/
def numberLength : Text → Nat
  | [] => 0
  | c :: cs =>
    if isIdentPart c || (c == '.' && startsDigit cs) then numberLength cs + 1 else 0

/-- How many characters continue an identifier. A backslash takes the character behind it along,
whatever that is. -/
def identLength : Text → Nat
  | [] => 0
  | c :: cs =>
    if c = '\\' then
      match cs with
      | [] => 0
      | _ :: rest => identLength rest + 2
    else if isIdentPart c then identLength cs + 1 else 0

/-- How many characters a string literal has behind its opening quote, the closing quote included.
A backslash protects the character behind it; a bare newline ends the search. -/
def stringLength : Text → Option Nat
  | [] => none
  | c :: cs =>
    if c = '\\' then
      match cs with
      | [] => none
      | _ :: rest => (stringLength rest).map (· + 2)
    else if c = '"' then some 1
    else if c = '\n' then none
    else (stringLength cs).map (· + 1)

/-- How many characters a template literal has behind its opening quote, the closing quote
included. Nothing is escaped in it. -/
def templateLength : Text → Option Nat
  | [] => none
  | c :: cs => if c = '\x60' then some 1 else (templateLength cs).map (· + 1)

/-- The operators of more than one character; the first that fits is taken. The closing `|}`
stands before `||`, so that an empty exclusive record closes. -/
def operators : List Text :=
  ["...", "\x7b|", "|\x7d", "=>", "->", "==", "!=", "<=", ">=", "&&", "||"].map String.toList

/-- How many characters an operator has behind its first. -/
def operatorLength (cs : Text) : Nat :=
  match operators.find? (·.isPrefixOf cs) with
  | some op => op.length - 1
  | none => 0

/-- The kind of the token that begins with `c`, and how many of the characters `cs` behind `c`
belong to it. -/
def next (c : Char) (cs : Text) : Except LexicalCause (TokenKind × Nat) :=
  if c = '"' then
    match stringLength cs with
    | some n => .ok (.string, n)
    | none => .error .unterminatedLiteral
  else if c = '\x60' then
    match templateLength cs with
    | some n => .ok (.template, n)
    | none => .error .unterminatedLiteral
  else if Text.isDigit c then .ok (.number, numberLength cs)
  else if c = '\'' then
    match identLength cs with
    | 0 => .error .invalidIdentifier
    | n => .ok (.ident, n)
  else if c = '\\' then
    match cs with
    | [] => .error .invalidIdentifier
    | _ :: rest => .ok (.ident, identLength rest + 1)
  else if isIdentStart c then .ok (.ident, identLength cs)
  else .ok (.op, operatorLength (c :: cs))

/-- The tokens of a text that begins at offset `pos` of the source. -/
def scanFrom (pos : Nat) : Text → Except LexicalFault (List Token)
  | [] => .ok []
  | c :: cs =>
    if isSpace c then scanFrom (pos + 1) cs
    else if startsComment (c :: cs) then
      let body := cs.takeWhile (· != '\n')
      scanFrom (pos + 1 + body.length) (cs.drop body.length)
    else
      match next c cs with
      | .error cause => .error ⟨cause, pos⟩
      | .ok (kind, n) =>
        match scanFrom (pos + 1 + n) (cs.drop n) with
        | .error fault => .error fault
        | .ok tokens => .ok (⟨⟨kind, c :: cs.take n⟩, pos⟩ :: tokens)
termination_by t => t.length
decreasing_by all_goals simp only [List.length_cons, List.length_drop]; omega

end Lexer

namespace Text

/-- The tokens of a source, without its end. -/
def scan (source : Text) : Except LexicalFault (List Token) :=
  Lexer.scanFrom 0 source

/-- The tokens of a source, with its end as the last one. -/
def tokenize (source : Text) : Except LexicalFault (List Token) :=
  (source.scan).map (· ++ [Token.eof source.length])

end Text

end BalMediation
