/-!
# Texts

A text is the list of its characters. Offsets count characters, so a slice is a `take` of a `drop`
and no offset can fall inside a character.

Blank characters are the white space of Unicode together with the four separators U+001C to
U+001F; `trim`, `words` and their kin go by that class.
-/

namespace BalMediation

/-- A text, as the list of its characters. -/
abbrev Text := List Char

namespace Text

/-- The decimal digits of a number. -/
def ofNat (n : Nat) : Text :=
  (toString n).toList

/-- The decimal digits of a number, with a minus sign if it is negative. -/
def ofInt (n : Int) : Text :=
  (toString n).toList

/-- The characters from offset `start` up to, not including, offset `stop`. -/
def slice (t : Text) (start stop : Nat) : Text :=
  (t.drop start).take (stop - start)

/-- White space in the widest sense. -/
def isBlank (c : Char) : Bool :=
  let n := c.toNat
  (0x09 ≤ n && n ≤ 0x0d) || (0x1c ≤ n && n ≤ 0x20) || n == 0x85 || n == 0xa0 || n == 0x1680 ||
    (0x2000 ≤ n && n ≤ 0x200a) || n == 0x2028 || n == 0x2029 || n == 0x202f || n == 0x205f ||
    n == 0x3000

/-- The characters that end a line when a text is cut into lines. -/
def isLineBreak (c : Char) : Bool :=
  let n := c.toNat
  (0x0a ≤ n && n ≤ 0x0d) || (0x1c ≤ n && n ≤ 0x1e) || n == 0x85 || n == 0x2028 || n == 0x2029

/-- Drops the characters with property `p` at the end. -/
def dropWhileEnd (p : Char → Bool) (t : Text) : Text :=
  (t.reverse.dropWhile p).reverse

/-- Drops the characters with property `p` at both ends. -/
def dropWhileBoth (p : Char → Bool) (t : Text) : Text :=
  dropWhileEnd p (t.dropWhile p)

/-- Drops the blanks at both ends. -/
def trim (t : Text) : Text :=
  dropWhileBoth isBlank t

/-- Cuts a text at each character with property `p`; there is one more piece than there are cuts. -/
def splitWhere (p : Char → Bool) : Text → List Text
  | [] => [[]]
  | c :: cs =>
    if p c then [] :: splitWhere p cs
    else match splitWhere p cs with
      | [] => [[c]]
      | piece :: pieces => (c :: piece) :: pieces

/-- Cuts a text at each occurrence of one character. -/
def splitOn (sep : Char) (t : Text) : List Text :=
  splitWhere (· == sep) t

/-- The maximal runs of characters that are not blank. -/
def words (t : Text) : List Text :=
  (splitWhere isBlank t).filter (!·.isEmpty)

/-- Puts the texts one after the other with `sep` between neighbours. -/
def join (sep : Text) (ts : List Text) : Text :=
  sep.intercalate ts

/-- The part behind the last occurrence of a character; the whole text if there is none. -/
def afterLast (sep : Char) (t : Text) : Text :=
  (t.reverse.takeWhile (· != sep)).reverse

/-- Whether `part` occurs somewhere in the text. -/
def includes (part : Text) : Text → Bool
  | [] => part.isEmpty
  | c :: cs => part.isPrefixOf (c :: cs) || includes part cs

/-- Order by code points, character by character. -/
def le : Text → Text → Bool
  | [], _ => true
  | _ :: _, [] => false
  | a :: as, b :: bs => a.toNat < b.toNat || (a == b && le as bs)

/-- One line ending for all: a carriage return, alone or before a newline, becomes a newline. -/
def unifyNewlines : Text → Text
  | [] => []
  | '\r' :: '\n' :: cs => '\n' :: unifyNewlines cs
  | c :: cs => (if c == '\r' then '\n' else c) :: unifyNewlines cs

/-- The first line of a text, without its end. -/
def firstLine (t : Text) : Text :=
  t.takeWhile (!isLineBreak ·)

theorem splitWhere_ne_nil (p : Char → Bool) (t : Text) : splitWhere p t ≠ [] := by
  cases t with
  | nil => simp [splitWhere]
  | cons c cs =>
    unfold splitWhere
    split
    · simp
    · split <;> simp

end Text

end BalMediation
