import BalMediation.Text.Identifier

/-!
# Literals

The arguments of a handler in console markup are literals: numbers, quoted texts, truth values, and
tuples, sets and tables of literals. `isLiteral` says whether a text is one. A set, and a key of a
table, holds only what has a hash: neither sets nor tables.
-/

namespace BalMediation.Literal

/-- A word of a literal. -/
inductive Word where
  | number (imaginary : Bool)
  | quoted (bytes : Bool)
  | name (t : Text)
  | dots
  | mark (c : Char)
deriving DecidableEq, Repr

/-- Drops digits with single underscores between them. -/
def afterDigits (p : Char → Bool) : Text → Text
  | [] => []
  | '_' :: c :: cs => if p c then afterDigits p cs else '_' :: c :: cs
  | c :: cs => if p c then afterDigits p cs else c :: cs

/-- A digit in hexadecimal. -/
def isHexDigit (c : Char) : Bool :=
  c.isDigit || ('a' ≤ c && c ≤ 'f') || ('A' ≤ c && c ≤ 'F')

/-- The digits of a base by the letter that announces it. -/
def digitsOf? (letter : Char) : Option (Char → Bool) :=
  match letter.toLower with
  | 'x' => some isHexDigit
  | 'o' => some fun c => '0' ≤ c && c ≤ '7'
  | 'b' => some fun c => c == '0' || c == '1'
  | _ => none

/-- Drops an exponent. -/
def afterExponent (t : Text) : Text :=
  match t with
  | e :: cs =>
    if e = 'e' || e = 'E' then
      let digits := match cs with
        | '+' :: cs => cs
        | '-' :: cs => cs
        | cs => cs
      if digits.head?.any Char.isDigit then afterDigits Char.isDigit digits else t
    else t
  | [] => t

/-- Whether a text can follow a number. -/
def endsNumber (t : Text) : Bool :=
  !t.head?.any Text.continuesName

/-- Reads a number with a decimal point, an exponent or none of them. -/
def decimal? (t : Text) : Option (Word × Text) :=
  let whole := afterDigits Char.isDigit t
  let fraction := match whole with
    | '.' :: rest => if rest.head?.any Char.isDigit then afterDigits Char.isDigit rest else rest
    | rest => rest
  let rest := afterExponent fraction
  let imaginary := rest.head?.any fun c => c == 'j' || c == 'J'
  let rest := if imaginary then rest.tail else rest
  let digits := t.take (t.length - whole.length)
  let isWhole := rest.length = whole.length
  let leadingZero := digits.head? = some '0' && digits.any fun c => '1' ≤ c && c ≤ '9'
  if endsNumber rest && !(isWhole && leadingZero) then some (.number imaginary, rest) else none

/-- Reads a number. -/
def number? (t : Text) : Option (Word × Text) :=
  match t with
  | '0' :: letter :: rest =>
    match digitsOf? letter with
    | some p =>
      let digits := match rest with
        | '_' :: rest => rest
        | rest => rest
      let behind := afterDigits p digits
      if digits.head?.any p && endsNumber behind then some (.number false, behind) else none
    | none => decimal? t
  | t => decimal? t

/-- Whether the characters behind a backslash and a letter complete an escape. -/
def isEscape (bytes : Bool) (letter : Char) (rest : Text) : Bool :=
  let hasDigits (n : Nat) := (rest.take n).length = n && (rest.take n).all isHexDigit
  if letter = 'x' then hasDigits 2
  else if bytes then letter.toNat < 128
  else if letter = 'u' then hasDigits 4
  else if letter = 'U' then hasDigits 8 && "00".toList.isPrefixOf rest
  else letter != 'N'

/-- What follows a quoted text. `triple` says that three quotes end it. -/
def afterQuote? (raw bytes triple : Bool) (quote : Char) : Text → Option Text
  | [] => none
  | '\\' :: c :: cs =>
    if raw then
      if bytes && c.toNat ≥ 128 then none else afterQuote? raw bytes triple quote cs
    else if isEscape bytes c cs then afterQuote? raw bytes triple quote cs
    else none
  | c :: cs =>
    if c = quote then
      if !triple then some cs
      else if [quote, quote].isPrefixOf cs then some (cs.drop 2)
      else afterQuote? raw bytes triple quote cs
    else if (c = '\n' && !triple) || c = '\\' || (bytes && c.toNat ≥ 128) then none
    else afterQuote? raw bytes triple quote cs

/-- The letters that a quoted text may begin with. -/
def quoteMarks : List String := ["", "r", "u", "b", "br", "rb"]

/-- Reads a quoted text that begins with some letters. -/
def quoted? (letters : Text) (quote : Char) (t : Text) : Option (Word × Text) :=
  let letters := letters.map Char.toLower
  if quoteMarks.contains (String.ofList letters) then
    let raw := letters.contains 'r'
    let bytes := letters.contains 'b'
    let triple := [quote, quote].isPrefixOf t
    let rest := if triple then afterQuote? raw bytes true quote (t.drop 2)
      else afterQuote? raw bytes false quote t
    rest.map fun rest => (.quoted bytes, rest)
  else none

/-- Reads the word that a text begins with. -/
def word? : Text → Option (Word × Text)
  | [] => none
  | c :: cs =>
    if c.isDigit || (c = '.' && cs.head?.any Char.isDigit) then number? (c :: cs)
    else if c = '\'' || c = '"' then quoted? [] c cs
    else if Text.startsName c then
      let name := c :: cs.takeWhile Text.continuesName
      match cs.dropWhile Text.continuesName with
      | [] => some (.name name, [])
      | d :: rest =>
        if d = '\'' || d = '"' then quoted? name d rest else some (.name name, d :: rest)
    else if "...".toList.isPrefixOf (c :: cs) then some (.dots, cs.drop 2)
    else if "()\x7b\x7d,:+-".toList.contains c then some (.mark c, cs)
    else none

/-- The words of a text. A newline separates words only inside parentheses or braces, of which
`depth` are open. -/
def words? (depth : Nat) : Nat → Text → Option (List Word)
  | 0, _ => none
  | _ + 1, [] => some []
  | fuel + 1, c :: cs =>
    if c = ' ' || c = '\t' || (c = '\n' && depth > 0) then words? depth fuel cs
    else if c = '#' then words? depth fuel (cs.dropWhile (· != '\n'))
    else do
      let (word, rest) ← word? (c :: cs)
      let depth := match word with
        | .mark '(' | .mark '\x7b' => depth + 1
        | .mark ')' | .mark '\x7d' => depth - 1
        | _ => depth
      return word :: (← words? depth fuel rest)

/-- What is known of a value. -/
inductive Form where
  | number (imaginary signed : Bool)
  | hashable
  | unhashable
deriving DecidableEq, Repr

namespace Form

/-- Whether a value has a hash. -/
def isHashable (f : Form) : Bool :=
  f != .unhashable

/-- The form of a tuple. -/
def tuple (items : List Form) : Form :=
  if items.all isHashable then .hashable else .unhashable

end Form

mutual

/-- Reads a value: a number, a sum of a real and an imaginary number, or any other literal. -/
def value? : Nat → List Word → Option (Form × List Word)
  | 0, _ => none
  | fuel + 1, ws => do
    let (form, rest) ← signed? fuel ws
    match form, rest with
    | .number false _, .mark c :: behind =>
      if c = '+' || c = '-' then
        match ← signed? fuel behind with
        | (.number true false, rest) => some (.hashable, rest)
        | _ => none
      else some (form, rest)
    | _, _ => some (form, rest)

/-- Reads a number behind a sign, or a literal without one. -/
def signed? : Nat → List Word → Option (Form × List Word)
  | 0, _ => none
  | fuel + 1, ws =>
    match ws with
    | .mark '+' :: rest | .mark '-' :: rest => do
      match ← signed? fuel rest with
      | (.number imaginary false, rest) => some (.number imaginary true, rest)
      | _ => none
    | .number imaginary :: rest => some (.number imaginary false, rest)
    | .quoted bytes :: rest =>
      let rest := rest.dropWhile (· == .quoted bytes)
      if rest.head? = some (.quoted !bytes) then none else some (.hashable, rest)
    | .dots :: rest => some (.hashable, rest)
    | .name t :: rest =>
      if ["True", "False", "None"].contains (String.ofList t) then some (.hashable, rest)
      else if t = "set".toList && [.mark '(', .mark ')'].isPrefixOf rest then
        some (.unhashable, rest.drop 2)
      else none
    | .mark '(' :: rest => do
      let (items, comma, rest) ← items? fuel ')' rest
      match items, comma with
      | [item], false => some (item, rest)
      | items, _ => some (.tuple items, rest)
    | .mark '\x7b' :: .mark '\x7d' :: rest => some (.unhashable, rest)
    | .mark '\x7b' :: rest => do
      let (first, rest) ← value? fuel rest
      if !first.isHashable then none
      else match rest with
        | .mark ':' :: rest => do
          let (_, rest) ← value? fuel rest
          match rest with
          | .mark ',' :: rest => fields? fuel rest
          | .mark '\x7d' :: rest => some (.unhashable, rest)
          | _ => none
        | .mark ',' :: rest => do
          let (items, _, rest) ← items? fuel '\x7d' rest
          if items.all Form.isHashable then some (.unhashable, rest) else none
        | .mark '\x7d' :: rest => some (.unhashable, rest)
        | _ => none
    | _ => none

/-- Reads values with commas between them up to a closing mark, and says whether a comma was
read. -/
def items? : Nat → Char → List Word → Option (List Form × Bool × List Word)
  | 0, _, _ => none
  | fuel + 1, close, ws =>
    if ws.head? = some (.mark close) then some ([], false, ws.tail)
    else do
      let (item, rest) ← value? fuel ws
      match rest with
      | .mark ',' :: rest =>
        let (items, _, rest) ← items? fuel close rest
        some (item :: items, true, rest)
      | .mark c :: rest => if c = close then some ([item], false, rest) else none
      | _ => none

/-- Reads the fields of a table up to its closing brace. -/
def fields? : Nat → List Word → Option (Form × List Word)
  | 0, _ => none
  | fuel + 1, ws =>
    if ws.head? = some (.mark '\x7d') then some (.unhashable, ws.tail)
    else do
      let (key, rest) ← value? fuel ws
      match rest with
      | .mark ':' :: rest =>
        let (_, rest) ← value? fuel rest
        match rest with
        | .mark ',' :: rest => if key.isHashable then fields? fuel rest else none
        | .mark '\x7d' :: rest => if key.isHashable then some (.unhashable, rest) else none
        | _ => none
      | _ => none

end

/-- Whether a text is a literal, or several with commas between them. -/
def isLiteral (t : Text) : Bool :=
  match words? 0 (t.length + 1) t with
  | none => false
  | some ws =>
    match items? (4 * ws.length + 8) ')' (ws ++ [.mark ')']) with
    | some (items, _, []) => !items.isEmpty
    | _ => false

end BalMediation.Literal
