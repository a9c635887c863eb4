import BalMediation.Text.Basic
import BalMediation.Text.Printable

/-!
# Quoted texts

A text in quotes, on one line and with nothing in it that cannot be seen. The quotes are single
unless the text holds a single quote and no double one; the quote in use, the backslash and the
line and tab characters are escaped by a letter, every other unprintable character by its number.
-/

namespace BalMediation.Text

/-- Exactly `n` lower-case hexadecimal digits, the last ones of a number. -/
def hex (n value : Nat) : Text :=
  let digits := Nat.toDigits 16 value
  List.replicate (n - digits.length) '0' ++ digits

/-- One character inside quotes. -/
def quoteChar (quote c : Char) : Text :=
  if c == quote || c == '\\' then ['\\', c]
  else if c == '\n' then ['\\', 'n']
  else if c == '\r' then ['\\', 'r']
  else if c == '\t' then ['\\', 't']
  else if isPrintable c then [c]
  else if c.toNat < 0x100 then '\\' :: 'x' :: hex 2 c.toNat
  else if c.toNat < 0x10000 then '\\' :: 'u' :: hex 4 c.toNat
  else '\\' :: 'U' :: hex 8 c.toNat

/-- The text in quotes. -/
def quoted (t : Text) : Text :=
  let quote := if t.any (· == '\'') && !t.any (· == '"') then '"' else '\''
  quote :: t.flatMap (quoteChar quote) ++ [quote]

end BalMediation.Text
