import BalMediation.ResourcePath
import BalMediation.Proofs.Gluing

/-!
# Identifiers and their names

An identifier spells a name: a quote in front of it does not count, and a backslash stands for the
character behind it. The name that a path is given instead of an identifier is this one, unless a
newline is escaped (`unescape_text`). In the middle of a longer text only the quote is not taken off
(`dropEscapes_text_append`).
-/

namespace BalMediation

open Lexer

/-- A text that is one token, an identifier. -/
structure Identifier where
  text : Text
  isToken : text.scan = .ok [⟨⟨.ident, text⟩, 0⟩]

namespace Identifier

/-- The characters that are spelled, with every escape as the character behind its backslash. -/
def spelled : Text → Text
  | '\\' :: c :: t => c :: spelled t
  | c :: t => c :: spelled t
  | [] => []

/-- Whether the identifier begins with a quote. -/
def quoted (i : Identifier) : Bool :=
  i.text.head? == some '\''

/-- The identifier without its quote. -/
def body (i : Identifier) : Text :=
  if i.quoted then i.text.tail else i.text

/-- The name that the identifier spells. -/
def name (i : Identifier) : Text :=
  spelled i.body

theorem reads (i : Identifier) : Reads ⟨.ident, i.text⟩ [] := by
  obtain ⟨ws, tail, ht, hl, -, hts⟩ := exists_words i.isToken
  cases ws with
  | nil => cases hts
  | cons w ws =>
    obtain ⟨hw, hws⟩ := List.cons.inj hts
    obtain rfl : ws = [] := by
      cases ws with
      | nil => rfl
      | cons v ws => cases hws
    obtain ⟨hlexeme, hstart⟩ := Token.mk.inj hw
    have hgap : w.gap = [] := List.eq_nil_of_length_eq_zero (by omega)
    have htail : tail = [] := by simpa [hgap, ← hlexeme] using ht
    simpa [← hlexeme, htail] using hl.2.1

/-- An identifier behind its quote: letters, numerals, underscores and escapes up to its end. -/
theorem identLength_body (i : Identifier) :
    i.body ≠ [] ∧ identLength i.body = i.body.length := by
  obtain ⟨c, u, hc, -, -, hn⟩ := i.reads
  simp only at hc hn
  rw [List.append_nil] at hn
  by_cases hq : c = '\''
  · have hbody : i.body = u := by simp [body, quoted, hc, hq]
    subst hq
    obtain ⟨-, hne, hu⟩ := next_quoted.1 hn
    rw [hbody]
    exact ⟨fun h => hne (by simp [h]), hu⟩
  · have hbody : i.body = c :: u := by simp [body, quoted, hc, hq]
    rw [hbody]
    exact ⟨by simp, identLength_of_next hn hq⟩

theorem text_eq (i : Identifier) : i.text = (if i.quoted then ['\''] else []) ++ i.body := by
  unfold body
  split
  · rename_i hq
    obtain ⟨t, ht⟩ := List.head?_eq_some_iff.1 (by simpa [quoted] using hq)
    simp [ht]
  · rfl

end Identifier

/-- The characters that can begin the part of an identifier behind its quote. -/
theorem Lexer.head_of_identLength {c : Char} {u : Text}
    (h : identLength (c :: u) = (c :: u).length) : c = '\\' ∨ isIdentPart c = true := by
  by_cases hc : c = '\\'
  · exact .inl hc
  · rw [identLength_cons hc] at h
    split_ifs at h with hp
    exact .inr hp

namespace Text

theorem dropEscapes_cons {c : Char} (hc : c ≠ '\\') (t : Text) :
    dropEscapes (c :: t) = c :: dropEscapes t := by
  rw [dropEscapes.eq_def]
  simp [hc]

theorem dropEscapes_eq_spelled {t : Text} (h : '\n' ∉ t) :
    dropEscapes t = Identifier.spelled t := by
  fun_induction Identifier.spelled t with
  | case1 c t ih =>
    have hc : c ≠ '\n' := fun e => h (by simp [e])
    have ht : '\n' ∉ t := fun hm => h (by simp [hm])
    simp [dropEscapes, hc, ih ht]
  | case2 c t hne ih =>
    have ht : '\n' ∉ t := fun hm => h (by simp [hm])
    by_cases hc : c = '\\'
    · cases t with
      | nil => simp [dropEscapes, Identifier.spelled, hc]
      | cons d t => exact absurd rfl (hne d t hc)
    · rw [dropEscapes_cons hc, ih ht]
  | case3 => rfl

theorem dropEscapes_append : ∀ {u : Text} (t : Text), identLength u = u.length →
    dropEscapes (u ++ t) = dropEscapes u ++ dropEscapes t
  | [], t, _ => by simp [dropEscapes]
  | [c], t, h => by
    by_cases hc : c = '\\'
    · simp [identLength, hc] at h
    · rw [List.singleton_append, dropEscapes_cons hc, dropEscapes_cons hc, dropEscapes,
        List.singleton_append]
  | c :: d :: u, t, h => by
    by_cases hc : c = '\\'
    · simp only [identLength, hc, if_true, List.length_cons] at h
      have ih := dropEscapes_append t (show identLength u = u.length by omega)
      by_cases hd : d = '\n' <;> simp [dropEscapes, hc, hd, ih]
    · rw [identLength_cons hc] at h
      split_ifs at h
      have ih := dropEscapes_append (u := d :: u) t (by simpa using h)
      rw [List.cons_append, dropEscapes_cons hc, ih, dropEscapes_cons hc, List.cons_append]

end Text

namespace Identifier

theorem dropEscapes_body {i : Identifier} (h : '\n' ∉ i.text) :
    i.body.dropEscapes = i.name := by
  refine Text.dropEscapes_eq_spelled fun hm => h ?_
  rw [i.text_eq]
  exact List.mem_append_right _ hm

/-- An identifier at the front of a text stands for its name. -/
theorem unescape_text_append {i : Identifier} (h : '\n' ∉ i.text) (t : Text) :
    (i.text ++ t).unescape = i.name ++ t.dropEscapes := by
  obtain ⟨hne, hlen⟩ := i.identLength_body
  have hdrop : (i.text ++ t).dropWhile (· == '\'') = i.body ++ t := by
    obtain ⟨c, u, hc⟩ := List.exists_cons_of_ne_nil hne
    have hquote : c ≠ '\'' := by
      rintro rfl
      rw [hc] at hlen
      exact absurd (head_of_identLength hlen) (by decide)
    rw [i.text_eq, hc]
    cases i.quoted <;> simp [hquote]
  rw [Text.unescape, hdrop, Text.dropEscapes_append t hlen, dropEscapes_body h]

theorem unescape_text {i : Identifier} (h : '\n' ∉ i.text) : i.text.unescape = i.name := by
  simpa [Text.dropEscapes] using unescape_text_append h []

/-- Inside a text an identifier keeps its quote. -/
theorem dropEscapes_text_append {i : Identifier} (h : '\n' ∉ i.text) (t : Text) :
    (i.text ++ t).dropEscapes
      = (if i.quoted then ['\''] else []) ++ i.name ++ t.dropEscapes := by
  have hbody := Text.dropEscapes_append t i.identLength_body.2
  rw [dropEscapes_body h] at hbody
  rw [i.text_eq]
  cases i.quoted with
  | true => simp [Text.dropEscapes_cons, hbody]
  | false => simp [hbody]

/-- What an identifier begins with. -/
theorem head_text (i : Identifier) {c : Char} (h : i.text.head? = some c) :
    c = '\'' ∨ c = '\\' ∨ isIdentPart c = true := by
  obtain ⟨hne, hlen⟩ := i.identLength_body
  rw [i.text_eq] at h
  cases hq : i.quoted with
  | true => exact .inl (by simpa [hq, eq_comm] using h)
  | false =>
    obtain ⟨d, u, hd⟩ := List.exists_cons_of_ne_nil hne
    obtain rfl : d = c := by simpa [hq, hd] using h
    rw [hd] at hlen
    exact .inr (head_of_identLength hlen)

end Identifier

end BalMediation
