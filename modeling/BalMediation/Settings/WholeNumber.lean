import BalMediation.Text.Basic

/-!
# Whole numbers in settings

The text of a whole number: white space around it, an optional sign, decimal digits with single
underscores between them, and optionally a point and zeros. The zeros that lead a number may have
any underscores among them, and a minus sign may also come behind them.
-/

namespace BalMediation.WholeNumber

/-- White space around a number. The separators U+001C to U+001F do not count. -/
def isSpace (c : Char) : Bool :=
  Text.isBlank c && !(0x1c ≤ c.toNat && c.toNat ≤ 0x1f)

/-- The value of decimal digits. -/
def value (digits : Text) : Nat :=
  digits.foldl (fun n c => 10 * n + (c.toNat - '0'.toNat)) 0

/-- The value of groups of digits with an underscore between neighbours. -/
def digits? (t : Text) : Option Nat :=
  let groups := t.splitOn '_'
  if groups.all fun g => !g.isEmpty && g.all Char.isDigit then some (value groups.flatten)
  else none

/-- The value of a number without a sign. -/
def unsigned? (t : Text) : Option Nat :=
  match t.splitOn '.' with
  | [whole] => digits? whole
  | [whole, zeros] =>
    if !zeros.isEmpty && zeros.all (· == '0') then digits? whole else none
  | _ => none

/-- Drops the zeros and underscores that lead a number. `last` is the one dropped last: it stays if
nothing follows, or only the part behind the point. -/
def afterZeros (last : Char) : Text → Option Text
  | [] => some [last]
  | c :: cs =>
    if c = '0' || c = '_' then afterZeros c cs
    else if c = '.' then some (last :: c :: cs)
    else if c.isDigit || c = '-' then some (c :: cs)
    else none

/-- A number without the zeros that lead it. It begins with a digit. -/
def significant? : Text → Option Text
  | [] => none
  | c :: cs => if c = '0' then afterZeros c cs else if c.isDigit then some (c :: cs) else none

/-- The value of a number whose sign, if it has one, comes behind its leading zeros. -/
def afterPlus? (t : Text) : Option Int := do
  match ← significant? t with
  | '-' :: rest => (unsigned? rest).map fun n => -(n : Int)
  | rest => (unsigned? rest).map fun n => (n : Int)

/-- The value of a number. -/
def parse? (t : Text) : Option Int :=
  match Text.dropWhileBoth isSpace t with
  | '-' :: rest => ((significant? rest).bind unsigned?).map fun n => -(n : Int)
  | '+' :: rest => afterPlus? rest
  | t => afterPlus? t

end BalMediation.WholeNumber
