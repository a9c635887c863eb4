import BalMediation.Text.Basic
import BalMediation.Text.Letter
import BalMediation.Text.Mark

/-!
# Identifiers

The names that Unicode recommends for identifiers. A name begins with a letter, a letter numeral or
an underscore and goes on with letters, numerals, marks, decimal digits and connectors. The letters
whose compatibility form is no identifier are left out.
-/

namespace BalMediation.Text

/-- The numerals that are letters. -/
def letterNumeralRanges : List (Nat × Nat) := [
  (0x16ee, 0x16f0), (0x2160, 0x2182), (0x2185, 0x2188), (0x3007, 0x3007), (0x3021, 0x3029),
  (0x3038, 0x303a), (0xa6e6, 0xa6ef), (0x10140, 0x10174), (0x10341, 0x10341), (0x1034a, 0x1034a),
  (0x103d1, 0x103d5), (0x12400, 0x1246e)]

/-- The decimal digits beyond ASCII. -/
def decimalRanges : List (Nat × Nat) := [
  (0x660, 0x669), (0x6f0, 0x6f9), (0x7c0, 0x7c9), (0x966, 0x96f), (0x9e6, 0x9ef), (0xa66, 0xa6f),
  (0xae6, 0xaef), (0xb66, 0xb6f), (0xbe6, 0xbef), (0xc66, 0xc6f), (0xce6, 0xcef), (0xd66, 0xd6f),
  (0xde6, 0xdef), (0xe50, 0xe59), (0xed0, 0xed9), (0xf20, 0xf29), (0x1040, 0x1049),
  (0x1090, 0x1099), (0x17e0, 0x17e9), (0x1810, 0x1819), (0x1946, 0x194f), (0x19d0, 0x19d9),
  (0x1a80, 0x1a89), (0x1a90, 0x1a99), (0x1b50, 0x1b59), (0x1bb0, 0x1bb9), (0x1c40, 0x1c49),
  (0x1c50, 0x1c59), (0xa620, 0xa629), (0xa8d0, 0xa8d9), (0xa900, 0xa909), (0xa9d0, 0xa9d9),
  (0xa9f0, 0xa9f9), (0xaa50, 0xaa59), (0xabf0, 0xabf9), (0xff10, 0xff19), (0x104a0, 0x104a9),
  (0x10d30, 0x10d39), (0x11066, 0x1106f), (0x110f0, 0x110f9), (0x11136, 0x1113f),
  (0x111d0, 0x111d9), (0x112f0, 0x112f9), (0x11450, 0x11459), (0x114d0, 0x114d9),
  (0x11650, 0x11659), (0x116c0, 0x116c9), (0x11730, 0x11739), (0x118e0, 0x118e9),
  (0x11950, 0x11959), (0x11c50, 0x11c59), (0x11d50, 0x11d59), (0x11da0, 0x11da9),
  (0x16a60, 0x16a69), (0x16ac0, 0x16ac9), (0x16b50, 0x16b59), (0x1d7ce, 0x1d7ff),
  (0x1e140, 0x1e149), (0x1e2f0, 0x1e2f9), (0x1e950, 0x1e959), (0x1fbf0, 0x1fbf9)]

/-- The characters that begin a name although they are neither letters nor letter numerals. -/
def extraStartRanges : List (Nat × Nat) := [
  (0x1885, 0x1886), (0x2118, 0x2118), (0x212e, 0x212e)]

/-- The letters that do not begin a name. -/
def excludedStartRanges : List (Nat × Nat) := [
  (0x37a, 0x37a), (0xe33, 0xe33), (0xeb3, 0xeb3), (0x2e2f, 0x2e2f), (0xfc5e, 0xfc63),
  (0xfdfa, 0xfdfb), (0xfe70, 0xfe70), (0xfe72, 0xfe72), (0xfe74, 0xfe74), (0xfe76, 0xfe76),
  (0xfe78, 0xfe78), (0xfe7a, 0xfe7a), (0xfe7c, 0xfe7c), (0xfe7e, 0xfe7e), (0xff9e, 0xff9f)]

/-- The characters that continue a name although they are of none of its classes. -/
def extraPartRanges : List (Nat × Nat) := [
  (0xb7, 0xb7), (0x387, 0x387), (0xe33, 0xe33), (0xeb3, 0xeb3), (0x1369, 0x1371),
  (0x19da, 0x19da), (0x203f, 0x2040), (0x2054, 0x2054), (0xfe33, 0xfe34), (0xfe4d, 0xfe4f),
  (0xff3f, 0xff3f), (0xff9e, 0xff9f)]

/-- A character that begins a name. -/
def startsName (c : Char) : Bool :=
  if c.toNat < 128 then c.isAlpha || c == '_'
  else
    (isLetter c && !inRanges excludedStartRanges c) || inRanges letterNumeralRanges c ||
      inRanges extraStartRanges c

/-- A character that continues a name. -/
def continuesName (c : Char) : Bool :=
  if c.toNat < 128 then c.isAlphanum || c == '_'
  else startsName c || isMark c || inRanges decimalRanges c || inRanges extraPartRanges c

/-- Whether a text is a name. -/
def isName : Text → Bool
  | [] => false
  | c :: cs => startsName c && cs.all continuesName

end BalMediation.Text
