import BalMediation.Console.Emoji
import BalMediation.Text.Quoted
import Mathlib.Algebra.Group.Nat.Defs
import Mathlib.Data.List.Basic
import Mathlib.Tactic.SplitIfs

/-!
# Texts in quotes

Nothing in a quoted text is unprintable (`Text.isPrintable_of_mem_quoted`), and a text can be read
back from its quoted form: one character after the other is read behind the opening quote
(`Text.readChar_quoteChar`). So two texts that are quoted alike are one text
(`Text.quoted_injective`).
-/

namespace BalMediation.Text

/-! ## Numbers -/

theorem mem_toDigits_hex {n : Nat} {c : Char} (h : c ∈ Nat.toDigits 16 n) :
    ∃ d < 16, c = Nat.digitChar d := by
  induction n using Nat.strongRecOn with
  | ind n ih =>
    rw [Nat.toDigits_eq_if (by decide)] at h
    split_ifs at h with hn
    · exact ⟨n, hn, List.mem_singleton.1 h⟩
    · rcases List.mem_append.1 h with h | h
      · exact ih (n / 16) (by omega) h
      · exact ⟨n % 16, by omega, List.mem_singleton.1 h⟩

theorem hexValue_digitChar : ∀ d < 16, Emoji.hexValue [Nat.digitChar d] = d := by
  decide

theorem hexValue_concat (t : Text) (c : Char) :
    Emoji.hexValue (t ++ [c]) = 16 * Emoji.hexValue t + Emoji.hexValue [c] := by
  simp [Emoji.hexValue]

/-- Leading zeros do not count. -/
theorem hexValue_zeros (k : Nat) (t : Text) :
    Emoji.hexValue (List.replicate k '0' ++ t) = Emoji.hexValue t := by
  induction k with
  | zero => rfl
  | succ k ih => exact ih

theorem hexValue_toDigits (n : Nat) : Emoji.hexValue (Nat.toDigits 16 n) = n := by
  induction n using Nat.strongRecOn with
  | ind n ih =>
    rw [Nat.toDigits_eq_if (by decide)]
    split_ifs with hn
    · exact hexValue_digitChar n hn
    · rw [hexValue_concat, ih (n / 16) (by omega), hexValue_digitChar (n % 16) (by omega)]
      omega

theorem hexValue_hex (k n : Nat) : Emoji.hexValue (hex k n) = n := by
  rw [hex, hexValue_zeros, hexValue_toDigits]

theorem length_hex {k n : Nat} (hk : 0 < k) (hn : n < 16 ^ k) : (hex k n).length = k := by
  have hle := (Nat.length_toDigits_le_iff (by decide) hk).2 hn
  simp only [hex, List.length_append, List.length_replicate]
  omega

/-! ## Characters -/

/-- A quote that a text can stand in. -/
def IsQuote (c : Char) : Prop :=
  c = '\'' ∨ c = '"'

/-- A character that is given by its number, of so many digits. -/
def readNumber (digits : Nat) (t : Text) : Char × Text :=
  (Char.ofNat (Emoji.hexValue (t.take digits)), t.drop digits)

/-- The first character of a text inside quotes, and the text behind it. -/
def readChar : Text → Option (Char × Text)
  | [] => none
  | '\\' :: 'n' :: t => some ('\n', t)
  | '\\' :: 'r' :: t => some ('\r', t)
  | '\\' :: 't' :: t => some ('\t', t)
  | '\\' :: 'x' :: t => some (readNumber 2 t)
  | '\\' :: 'u' :: t => some (readNumber 4 t)
  | '\\' :: 'U' :: t => some (readNumber 8 t)
  | '\\' :: c :: t => some (c, t)
  | c :: t => some (c, t)

theorem readNumber_hex {k : Nat} {c : Char} (hk : 0 < k) (hc : c.toNat < 16 ^ k) (t : Text) :
    readNumber k (hex k c.toNat ++ t) = (c, t) := by
  have hlen := length_hex hk hc
  rw [readNumber, List.take_left' hlen, List.drop_left' hlen, hexValue_hex, Char.ofNat_toNat]

theorem readChar_of_ne {c : Char} (hc : c ≠ '\\') (t : Text) : readChar (c :: t) = some (c, t) := by
  rw [readChar]
  all_goals simp [hc]

/-- What is written for a character is read as that character. -/
theorem readChar_quoteChar {quote : Char} (hquote : IsQuote quote) (c : Char) (t : Text) :
    readChar (quoteChar quote c ++ t) = some (c, t) := by
  unfold quoteChar
  split_ifs with hescaped hn hr ht hprintable htwo hfour
  · rw [Bool.or_eq_true, beq_iff_eq, beq_iff_eq] at hescaped
    rcases hescaped with rfl | rfl
    · rcases hquote with rfl | rfl <;> rfl
    · rfl
  · rw [beq_iff_eq.1 hn]
    rfl
  · rw [beq_iff_eq.1 hr]
    rfl
  · rw [beq_iff_eq.1 ht]
    rfl
  · have hc : c ≠ '\\' := by
      rintro rfl
      simp at hescaped
    exact readChar_of_ne hc t
  · exact congrArg some (readNumber_hex (by decide) htwo t)
  · exact congrArg some (readNumber_hex (by decide) hfour t)
  · exact congrArg some (readNumber_hex (by decide) c.val.toNat_lt t)

theorem IsQuote.isPrintable {quote : Char} (h : IsQuote quote) : isPrintable quote = true := by
  rcases h with rfl | rfl <;> decide

theorem isPrintable_hex (k n : Nat) : ∀ c ∈ hex k n, isPrintable c = true := by
  have hdigit : ∀ d < 16, isPrintable (Nat.digitChar d) = true := by decide
  intro c h
  rcases List.mem_append.1 h with h | h
  · rw [List.eq_of_mem_replicate h]
    decide
  · obtain ⟨d, hd, rfl⟩ := mem_toDigits_hex h
    exact hdigit d hd

/-- What is written for a character is printable. -/
theorem isPrintable_quoteChar {quote : Char} (hquote : IsQuote quote) (c : Char) :
    ∀ d ∈ quoteChar quote c, isPrintable d = true := by
  have hslash : isPrintable '\\' = true := by decide
  have hpair : ∀ letter, isPrintable letter = true →
      ∀ d ∈ ['\\', letter], isPrintable d = true := by
    intro letter hletter
    rw [List.forall_mem_cons, List.forall_mem_singleton]
    exact ⟨hslash, hletter⟩
  have hnumber : ∀ letter, isPrintable letter = true → ∀ k,
      ∀ d ∈ '\\' :: letter :: hex k c.toNat, isPrintable d = true := by
    intro letter hletter k
    rw [List.forall_mem_cons, List.forall_mem_cons]
    exact ⟨hslash, hletter, isPrintable_hex k _⟩
  unfold quoteChar
  split_ifs with hescaped hn hr ht hprintable
  · have hc : isPrintable c = true := by
      rw [Bool.or_eq_true, beq_iff_eq, beq_iff_eq] at hescaped
      rcases hescaped with rfl | rfl
      · exact hquote.isPrintable
      · exact hslash
    exact hpair c hc
  · exact hpair 'n' (by decide)
  · exact hpair 'r' (by decide)
  · exact hpair 't' (by decide)
  · exact List.forall_mem_singleton.2 hprintable
  · exact hnumber 'x' (by decide) 2
  · exact hnumber 'u' (by decide) 4
  · exact hnumber 'U' (by decide) 8

/-! ## Texts -/

/-- The quote that a text stands in. -/
def quoteOf (t : Text) : Char :=
  if t.any (· == '\'') && !t.any (· == '"') then '"' else '\''

theorem quoted_eq (t : Text) :
    quoted t = quoteOf t :: (t.flatMap (quoteChar (quoteOf t)) ++ [quoteOf t]) :=
  rfl

theorem isQuote_quoteOf (t : Text) : IsQuote (quoteOf t) := by
  unfold quoteOf
  split_ifs
  · exact .inr rfl
  · exact .inl rfl

theorem getLast?_quoted (t : Text) : (quoted t).getLast? = some (quoteOf t) := by
  rw [quoted_eq, ← List.cons_append, List.getLast?_concat]

theorem isPrintable_of_mem_quoted {t : Text} {c : Char} (h : c ∈ quoted t) :
    isPrintable c = true := by
  have hquote := isQuote_quoteOf t
  rw [quoted_eq, List.mem_cons, List.mem_append, List.mem_singleton, List.mem_flatMap] at h
  rcases h with rfl | ⟨d, -, h⟩ | rfl
  · exact hquote.isPrintable
  · exact isPrintable_quoteChar hquote d c h
  · exact hquote.isPrintable

theorem eq_of_flatMap_quoteChar {quote : Char} (hquote : IsQuote quote) {t u : Text}
    (h : t.flatMap (quoteChar quote) = u.flatMap (quoteChar quote)) : t = u := by
  induction t generalizing u with
  | nil =>
    cases u with
    | nil => rfl
    | cons d u =>
      have hread := readChar_quoteChar hquote d (u.flatMap (quoteChar quote))
      rw [← List.flatMap_cons, ← h] at hread
      cases hread
  | cons c t ih =>
    have hread := readChar_quoteChar hquote c (t.flatMap (quoteChar quote))
    rw [← List.flatMap_cons, h] at hread
    cases u with
    | nil => cases hread
    | cons d u =>
      rw [List.flatMap_cons, readChar_quoteChar hquote, Option.some.injEq, Prod.mk.injEq] at hread
      rw [hread.1, ih hread.2.symm]

/-- A text can be told from its quoted form. -/
theorem quoted_injective : Function.Injective quoted := by
  intro t u h
  rw [quoted_eq, quoted_eq, List.cons.injEq] at h
  obtain ⟨hquote, h⟩ := h
  rw [hquote] at h
  exact eq_of_flatMap_quoteChar (isQuote_quoteOf u) (List.append_cancel_right h)

end BalMediation.Text
