import BalMediation.Proofs.Paths
import BalMediation.Proofs.Seams
import Mathlib

/-!
# Context records

The record that a resource builds for the hooks holds the method, the path of the resource and the
path of the service as literals. The values are pasted between the quotes as they are. So the record
is cut into its fixed tokens, with the values as its literals, exactly if the values can stand
between quotes: the path of the resource has no backtick, and the method and the path of the service
have no bare quote, no bare newline and no backslash that would protect the closing quote
(`record_spells_iff`). Other values end their literal too early or too late
(`record_of_quoted_service`).

A value can have several lines. They are indented with the record, which is why a literal is a
value behind the margin (`hang`) and not the value itself.
-/

namespace BalMediation

open Lexer

/-! ## Margins -/

namespace Fragment

/-- A text that goes on with a line: each further line that is not blank gets a margin. -/
def hang (margin : Nat) : Text → Text
  | [] => []
  | c :: t =>
    if c = '\n' then
      '\n' :: ((if (t.takeWhile (· != '\n')).all Text.isBlank then []
        else List.replicate margin ' ') ++ hang margin t)
    else c :: hang margin t

/-- The lines of a text, each behind a margin if it is not blank. -/
def indented (margin : Nat) (t : Text) : Text :=
  Text.join ['\n'] ((t.splitOn '\n').map (indentLine margin))

theorem indent_eq {width level : Int} (hlow : -maxCount - 1 ≤ width * level)
    (hm : width * level ≤ maxMargin) (t : Text) :
    indent width level t
      = .ok (indented (width * level).toNat (Text.dropWhileEnd (· == '\n') t) ++ ['\n']) := by
  have hmax : maxMargin ≤ maxCount := by decide
  unfold indent
  rw [if_neg (by simp only [Bool.or_eq_true, decide_eq_true_eq]; omega), if_neg (by omega)]
  rfl

variable (margin : Nat)

theorem indented_newline (a b : Text) :
    indented margin (a ++ '\n' :: b) = indented margin a ++ '\n' :: indented margin b := by
  unfold indented
  rw [Text.splitOn_append]
  rcases ha : Text.splitOn '\n' a with _ | ⟨p, ps⟩
  · exact absurd ha (Text.splitWhere_ne_nil _ a)
  rcases hb : Text.splitOn '\n' b with _ | ⟨q, qs⟩
  · exact absurd hb (Text.splitWhere_ne_nil _ b)
  simp [Text.join_cons]

theorem exists_lines (t : Text) : ∃ ps, t.splitOn '\n' = t.takeWhile (· != '\n') :: ps
    ∧ hang margin t
      = t.takeWhile (· != '\n') ++ ps.flatMap fun p => '\n' :: indentLine margin p := by
  induction t with
  | nil => exact ⟨[], rfl, rfl⟩
  | cons c t ih =>
    obtain ⟨ps, hsplit, hhang⟩ := ih
    unfold Text.splitOn at hsplit ⊢
    by_cases hc : c = '\n'
    · refine ⟨t.takeWhile (· != '\n') :: ps, by simp [Text.splitWhere, hsplit, hc], ?_⟩
      unfold hang
      rw [if_pos hc, hhang, List.flatMap_cons, indentLine]
      split <;> simp [hc]
    · refine ⟨ps, by simp [Text.splitWhere, hsplit, hc], ?_⟩
      unfold hang
      rw [if_neg hc, hhang]
      simp [hc]

/-- The first line of a text gets its margin in front of the others. -/
theorem indented_eq {t : Text} (h : (t.takeWhile (· != '\n')).all Text.isBlank = false) :
    indented margin t = List.replicate margin ' ' ++ hang margin t := by
  obtain ⟨ps, hsplit, hhang⟩ := exists_lines margin t
  rw [indented, hsplit, hhang, List.map_cons, Text.join_cons, indentLine, h]
  simp [List.flatMap_map]

theorem hang_append_of_not_mem {a : Text} (h : '\n' ∉ a) (b : Text) :
    hang margin (a ++ b) = a ++ hang margin b := by
  induction a with
  | nil => rfl
  | cons c a ih =>
    rw [List.mem_cons, not_or] at h
    rw [List.cons_append, hang, if_neg (Ne.symm h.1), ih h.2, List.cons_append]

/-- A text is indented up to a character that is not blank, whatever comes behind. -/
theorem hang_concat {q : Char} (hq : Text.isBlank q = false) (u b : Text) :
    hang margin (u ++ q :: b) = hang margin (u ++ [q]) ++ hang margin b := by
  have hnewline : q ≠ '\n' := by
    rintro rfl
    exact absurd hq (by decide)
  induction u with
  | nil => simp [hang, hnewline]
  | cons c u ih =>
    have hline : ∀ v : Text, ((u ++ q :: v).takeWhile (· != '\n')).all Text.isBlank
        = ((u ++ [q]).takeWhile (· != '\n')).all Text.isBlank := by
      intro v
      by_cases hu : ∀ d ∈ u, (d != '\n') = true
      · rw [List.takeWhile_append_of_pos hu, List.takeWhile_append_of_pos hu]
        simp [hnewline, hq]
      · have hlen : (u.takeWhile (· != '\n')).length ≠ u.length := fun he =>
          hu (List.takeWhile_eq_self_iff.1
            (List.Sublist.eq_of_length (List.takeWhile_sublist _) he))
        rw [List.takeWhile_append, List.takeWhile_append, if_neg hlen, if_neg hlen]
    rw [List.cons_append, List.cons_append, hang, hang, ih, hline b]
    split
    · rw [List.cons_append, List.append_assoc]
    · rw [List.cons_append]

end Fragment

/-! ## Cutting a text into tokens, line by line -/

/-- Whether a text is cut into tokens with these lexemes. -/
def Text.Spells (t : Text) (ls : List Lexeme) : Prop :=
  ∃ ts, t.scan = .ok ts ∧ ts.map (·.toLexeme) = ls

namespace Text.Spells

variable {t u : Text} {ls ks : List Lexeme}

theorem exists_words (h : Spells t ls) :
    ∃ ws tail, t = spell ws ++ tail ∧ Legible ws tail ∧ Trailing tail ∧ lexemes ws = ls := by
  obtain ⟨ts, hscan, rfl⟩ := h
  obtain ⟨ws, tail, rfl, hl, ht, rfl⟩ := Lexer.exists_words hscan
  exact ⟨ws, tail, rfl, hl, ht, (Tree.tokensFrom_toLexeme 0 ws).symm⟩

theorem of_words {ws : List Word} {tail : Text} (hl : Legible ws tail) (ht : Trailing tail) :
    Spells (spell ws ++ tail) (lexemes ws) :=
  ⟨_, Tree.scan_of_legible hl ht, Tree.tokensFrom_toLexeme 0 ws⟩

theorem nil : Spells [] [] :=
  @of_words [] [] trivial (.gap .nil)

/-- Each lexeme of a text reads as itself. -/
theorem reads (h : Spells t ls) : ∀ l ∈ ls, Reads l [] := by
  obtain ⟨ws, tail, -, hl, -, rfl⟩ := h.exists_words
  intro l hmem
  obtain ⟨w, hw, rfl⟩ := List.mem_map.1 hmem
  obtain ⟨as, bs, rfl⟩ := List.append_of_mem hw
  exact (reads_iff.1 (legible_append.1 hl).2.2.1).1

theorem append {ws : List Word} (hl : Legible ws u) (hu : Spells u ks) :
    Spells (spell ws ++ u) (lexemes ws ++ ks) := by
  obtain ⟨vs, tail, rfl, hl', ht, rfl⟩ := hu.exists_words
  rw [← List.append_assoc, ← spell_append, ← lexemes_append]
  exact of_words (legible_append.2 ⟨hl, hl'⟩) ht

theorem gap {g : Text} (hg : Gap g) (hu : Spells u ks) : Spells (g ++ u) ks := by
  obtain ⟨vs, tail, rfl, hl, ht, rfl⟩ := hu.exists_words
  exact ⟨_, (scanFrom_gap hg _ 0).trans (scanFrom_spell hl ht _), Tree.tokensFrom_toLexeme _ vs⟩

theorem margin (n : Nat) (hu : Spells u ks) : Spells (List.replicate n ' ' ++ u) ks := by
  refine hu.gap (Gap.of_blank fun c hc => ?_)
  rw [List.eq_of_mem_replicate hc]
  decide

/-- A newline keeps the lexemes of two texts apart. -/
theorem newline (h : Spells t ls) (hu : Spells u ks) : Spells (t ++ '\n' :: u) (ls ++ ks) := by
  obtain ⟨ws, tail, rfl, hl, ht, rfl⟩ := h.exists_words
  have hgap := ht.append_newline (.space rfl .nil)
  have hrest : Spells (tail ++ ['\n'] ++ u) ks := hu.gap hgap
  have := append (hl.append_newline hgap u) hrest
  simpa using this

/-- A literal behind words and a space. -/
theorem literal {ws : List Word} (hl : Legible ws [' ']) {l : Lexeme}
    (hk : l.kind = .string ∨ l.kind = .template) (hr : Reads l []) (hu : Spells u ks) :
    Spells (spell ws ++ ' ' :: (l.text ++ u)) (lexemes ws ++ l :: ks) := by
  have hends : Ends l u := by
    rcases hk with hk | hk <;> rw [Ends, hk] <;> trivial
  have hslash : l.text ≠ ['/'] := by
    intro htext
    obtain ⟨c, v, hv, -, -, hn⟩ := hr
    rw [htext] at hv
    cases hv
    have hop := (next_op (by decide) (by decide) (by decide) (by decide)).1 hn
    rw [hop.1] at hk
    simp at hk
  have hread : Reads l u := reads_iff.2 ⟨hr, hends, fun h => hslash h.1⟩
  have hword : Spells (l.text ++ u) (l :: ks) := by
    have hlegible : Legible [⟨[], l⟩] u := ⟨.nil, by simpa using hread, trivial⟩
    simpa using append hlegible hu
  exact append (hl.of_space (by decide)) (hword.gap (.space (by decide) .nil))

end Text.Spells

/-- Whether words are read one after the other, with nothing but blanks between them. -/
def legibleInBlanks : List Word → Text → Bool
  | [], _ => true
  | w :: ws, t =>
    w.gap.all isSpace && (match w.lexeme.text with
      | [] => false
      | c :: u => !isSpace c && !startsComment (c :: (u ++ (spell ws ++ t)))
        && (next c (u ++ (spell ws ++ t))).toOption = some (w.lexeme.kind, u.length))
      && legibleInBlanks ws t

theorem legible_of_blanks {ws : List Word} {t : Text} (h : legibleInBlanks ws t = true) :
    Legible ws t := by
  induction ws with
  | nil => trivial
  | cons w ws ih =>
    simp only [legibleInBlanks, Bool.and_eq_true, List.all_eq_true] at h
    obtain ⟨⟨hgap, hread⟩, hws⟩ := h
    refine ⟨.of_blank hgap, ?_, ih hws⟩
    split at hread
    · cases hread
    · rename_i c u htext
      simp only [Bool.and_eq_true, Bool.not_eq_true', decide_eq_true_eq] at hread
      exact ⟨c, u, htext, hread.1.1, hread.1.2, ok_of_toOption hread.2⟩

/-! ## Values between quotes -/

/-- Whether a text can stand between double quotes: a backslash protects the character behind it,
and no other quote or newline ends the literal. -/
def Text.quotable : Text → Bool
  | [] => true
  | c :: t =>
    if c = '\\' then
      match t with
      | [] => false
      | _ :: rest => quotable rest
    else c != '"' && c != '\n' && quotable t

namespace Text

/-- The characters that mean something between double quotes. -/
def quoteMarks : List Char := ['"', '\\', '\n']

theorem quotable_append {a : Text} (h : ∀ c ∈ a, c ∉ quoteMarks) (t : Text) :
    quotable (a ++ t) = quotable t := by
  induction a with
  | nil => rfl
  | cons c a ih =>
    have hc := h c List.mem_cons_self
    simp only [quoteMarks, List.mem_cons, List.not_mem_nil, or_false, not_or] at hc
    rw [List.cons_append, quotable.eq_def]
    simp [hc, ih fun d hd => h d (List.mem_cons_of_mem _ hd)]

theorem ofNat_not_mem_quoteMarks {n : Nat} (h : n ∉ [34, 92, 10]) : Char.ofNat n ∉ quoteMarks := by
  have hcode : (Char.ofNat n).toNat = n ∨ Char.ofNat n = Char.ofNat 0 := by
    rw [Char.ofNat]
    split
    · exact .inl rfl
    · exact .inr rfl
  intro hm
  rcases hcode with hcode | hcode
  · simp only [quoteMarks, List.mem_cons, List.not_mem_nil, or_false] at hm
    rw [← hcode] at h
    rcases hm with hm | hm | hm <;> rw [hm] at h <;> exact h (by decide)
  · rw [hcode] at hm
    exact absurd hm (by decide)

/-- The upper case of a character has no mark of its own. -/
theorem upperChar_of_not_mem {c : Char} (h : c ∉ quoteMarks) :
    upperChar c ≠ [] ∧ ∀ d ∈ upperChar c, d ∉ quoteMarks := by
  have hascii : ∀ n < 128, Char.ofNat n ∉ quoteMarks →
      (Char.ofNat n).toUpper ∉ quoteMarks := by decide
  have hexpansions : upperExpansions.all (fun e => !e.2.isEmpty && e.2.all (· ∉ [34, 92, 10]))
      = true := by decide
  have hruns : upperRuns.all (fun r => 92 < r.2.2.2 || (r.1 == r.2.1 && r.2.2.2 ∉ [34, 92, 10]))
      = true := by decide
  unfold upperChar
  split_ifs with hc
  · have := hascii c.toNat hc
    rw [Char.ofNat_toNat] at this
    simpa using this h
  · split
    · rename_i image hfind
      have := List.all_eq_true.1 hexpansions _ (List.mem_of_find?_eq_some hfind)
      simp only [Bool.and_eq_true, Bool.not_eq_true', List.isEmpty_eq_false_iff, List.all_eq_true,
        decide_eq_true_eq] at this
      refine ⟨by simpa using this.1, fun d hd => ?_⟩
      obtain ⟨n, hn, rfl⟩ := List.mem_map.1 hd
      exact ofNat_not_mem_quoteMarks (this.2 n hn)
    · split
      · rename_i first last step image hfind
        have hrun := List.all_eq_true.1 hruns _ (List.mem_of_find?_eq_some hfind)
        have hin := List.find?_some hfind
        simp only [Bool.and_eq_true, Bool.or_eq_true, decide_eq_true_eq, beq_iff_eq, List.mem_cons,
          List.not_mem_nil, or_false, not_or] at hrun hin
        refine ⟨by simp, fun d hd => ?_⟩
        rw [List.mem_singleton.1 hd]
        refine ofNat_not_mem_quoteMarks ?_
        simp only [List.mem_cons, List.not_mem_nil, or_false, not_or]
        omega
      · simpa using h

theorem upperChar_of_mem {c : Char} (h : c ∈ quoteMarks) : upperChar c = [c] := by
  simp only [quoteMarks, List.mem_cons, List.not_mem_nil, or_false] at h
  rcases h with rfl | rfl | rfl <;> rfl

/-- Upper case changes nothing about quotes. -/
theorem quotable_upper (t : Text) : quotable t.upper = quotable t := by
  have hupper : ∀ c t, upper (c :: t) = upperChar c ++ upper t := fun _ _ => List.flatMap_cons
  fun_induction quotable t with
  | case1 => rfl
  | case2 => rfl
  | case3 d rest ih =>
    rw [hupper, hupper, upperChar_of_mem (by decide), List.singleton_append, quotable.eq_def]
    by_cases hd : d ∈ quoteMarks
    · rw [upperChar_of_mem hd]
      exact ih
    · obtain ⟨hne, hmarks⟩ := upperChar_of_not_mem hd
      obtain ⟨e, es, he⟩ := List.exists_cons_of_ne_nil hne
      rw [he] at hmarks ⊢
      exact (quotable_append (fun c hc => hmarks c (List.mem_cons_of_mem _ hc)) _).trans ih
  | case4 c t hc ih =>
    rw [hupper]
    by_cases hd : c ∈ quoteMarks
    · rw [upperChar_of_mem hd, List.singleton_append, quotable.eq_def]
      simp only [hc, if_false, ih]
    · rw [quotable_append (upperChar_of_not_mem hd).2, ih]
      simp only [quoteMarks, List.mem_cons, List.not_mem_nil, or_false, not_or] at hd
      simp [hd]

end Text

/-- A text between double quotes. -/
def Text.inQuotes (t : Text) : Text :=
  '"' :: (t ++ ['"'])

/-- A text between backticks. -/
def Text.inTicks (t : Text) : Text :=
  '\x60' :: (t ++ ['\x60'])

namespace Fragment

variable (margin : Nat)

theorem stringLength_replicate (n : Nat) (t : Text) :
    stringLength (List.replicate n ' ' ++ t) = (stringLength t).map (· + n) := by
  induction n with
  | zero => simp
  | succ n ih =>
    rw [List.replicate_succ, List.cons_append, stringLength_cons (by decide), ih]
    simp [Function.comp_def, Nat.add_assoc]

theorem templateLength_replicate (n : Nat) (t : Text) :
    templateLength (List.replicate n ' ' ++ t) = (templateLength t).map (· + n) := by
  induction n with
  | zero => simp
  | succ n ih =>
    rw [List.replicate_succ, List.cons_append, templateLength, ih]
    simp [Function.comp_def, Nat.add_assoc]

/-- The margin behind a newline in front of a text. -/
theorem hang_newline (t : Text) :
    ∃ n, hang margin ('\n' :: t) = '\n' :: (List.replicate n ' ' ++ hang margin t) := by
  rw [hang, if_pos rfl]
  split
  · exact ⟨0, rfl⟩
  · exact ⟨margin, rfl⟩

theorem length_le_hang (t : Text) : t.length ≤ (hang margin t).length := by
  induction t with
  | nil => exact Nat.zero_le _
  | cons c t ih =>
    unfold hang
    split
    · simp only [List.length_cons, List.length_append]
      omega
    · simpa using ih

/-- A value and its closing quote are all of a string exactly if the value is quotable. -/
theorem stringLength_hang (t : Text) :
    stringLength (hang margin (t ++ ['"'])) = some (hang margin (t ++ ['"'])).length
      ↔ t.quotable = true := by
  fun_induction Text.quotable t with
  | case1 => simp [hang, stringLength]
  | case2 => simp [hang, stringLength]
  | case3 d rest ih =>
    have hhang : ∃ n, hang margin ('\\' :: d :: (rest ++ ['"']))
        = '\\' :: d :: (List.replicate n ' ' ++ hang margin (rest ++ ['"'])) := by
      rw [hang, if_neg (by decide)]
      by_cases hd : d = '\n'
      · obtain ⟨n, hn⟩ := hang_newline margin (rest ++ ['"'])
        exact ⟨n, by rw [hd, hn]⟩
      · exact ⟨0, by rw [hang, if_neg hd]; rfl⟩
    obtain ⟨n, hn⟩ := hhang
    rw [List.cons_append, List.cons_append, hn, stringLength, if_pos rfl, stringLength_replicate,
      ← ih]
    cases stringLength (hang margin (rest ++ ['"'])) with
    | none => simp
    | some k =>
      simp only [Option.map_some, Option.some.injEq, List.length_cons, List.length_append,
        List.length_replicate]
      omega
  | case4 c t hc ih =>
    by_cases hn : c = '\n'
    · obtain ⟨n, hhang⟩ := hang_newline margin (t ++ ['"'])
      rw [List.cons_append, hn, hhang, stringLength_cons (by decide)]
      simp
    · rw [List.cons_append, hang, if_neg hn, stringLength_cons hc, if_neg hn]
      have hlen := length_le_hang margin (t ++ ['"'])
      rw [List.length_append, List.length_singleton] at hlen
      split_ifs with hq
      · simp only [Option.some.injEq, List.length_cons, hq, bne_self_eq_false, Bool.false_and,
          Bool.false_eq_true, iff_false]
        omega
      · rw [Bool.and_eq_true, Bool.and_eq_true, ← ih]
        cases stringLength (hang margin (t ++ ['"'])) <;> simp [hq, hn]

/-- A value and its closing backtick are all of a template exactly if it has no other backtick. -/
theorem templateLength_hang (t : Text) :
    templateLength (hang margin (t ++ ['\x60'])) = some (hang margin (t ++ ['\x60'])).length
      ↔ '\x60' ∉ t := by
  induction t with
  | nil => simp [hang, templateLength]
  | cons c t ih =>
    have hlen := length_le_hang margin (t ++ ['\x60'])
    rw [List.length_append, List.length_singleton] at hlen
    rw [List.mem_cons, not_or, ← ih]
    by_cases hn : c = '\n'
    · obtain ⟨n, hhang⟩ := hang_newline margin (t ++ ['\x60'])
      rw [List.cons_append, hn, hhang, templateLength, if_neg (by decide),
        templateLength_replicate]
      cases templateLength (hang margin (t ++ ['\x60'])) with
      | none => simp
      | some k =>
        simp only [Option.map_some, Option.some.injEq, List.length_cons, List.length_append,
          List.length_replicate, Char.reduceEq, not_false_eq_true, true_and]
        omega
    · rw [List.cons_append, hang, if_neg hn, templateLength]
      split_ifs with hq
      · simp only [Option.some.injEq, List.length_cons, hq, not_true_eq_false, false_and,
          iff_false]
        omega
      · cases templateLength (hang margin (t ++ ['\x60'])) <;> simp [Ne.symm hq]

/-- The literal that holds a value between double quotes. -/
def stringLiteral (t : Text) : Lexeme :=
  ⟨.string, hang margin t.inQuotes⟩

/-- The literal that holds a value between backticks. -/
def templateLiteral (t : Text) : Lexeme :=
  ⟨.template, hang margin t.inTicks⟩

theorem reads_stringLiteral (t : Text) :
    Reads (stringLiteral margin t) [] ↔ t.quotable = true := by
  have htext : hang margin t.inQuotes = '"' :: hang margin (t ++ ['"']) := by
    rw [Text.inQuotes, hang, if_neg (by decide)]
  rw [← stringLength_hang margin t]
  constructor
  · rintro ⟨c, u, hu, -, -, hn⟩
    rw [stringLiteral, htext] at hu
    cases hu
    rw [List.append_nil] at hn
    exact (next_string.1 hn).2
  · intro h
    refine ⟨'"', _, htext, by decide, rfl, ?_⟩
    rw [List.append_nil]
    exact next_string.2 ⟨rfl, h⟩

theorem reads_templateLiteral (t : Text) :
    Reads (templateLiteral margin t) [] ↔ '\x60' ∉ t := by
  have htext : hang margin t.inTicks = '\x60' :: hang margin (t ++ ['\x60']) := by
    rw [Text.inTicks, hang, if_neg (by decide)]
  rw [← templateLength_hang margin t]
  constructor
  · rintro ⟨c, u, hu, -, -, hn⟩
    rw [templateLiteral, htext] at hu
    cases hu
    rw [List.append_nil] at hn
    exact (next_template.1 hn).2
  · intro h
    refine ⟨'\x60', _, htext, by decide, rfl, ?_⟩
    rw [List.append_nil]
    exact next_template.2 ⟨rfl, h⟩

/-! ## The record -/

/-- The words in front of the value of a field, the type of a template included. -/
def fieldWords (name : String) (types : List String) : List Word :=
  ⟨"    ".toList, ⟨.ident, name.toList⟩⟩ :: ⟨[], ⟨.op, [':']⟩⟩ ::
    types.map fun type => ⟨[' '], ⟨.ident, type.toList⟩⟩

/-- The text of a record, without the newline at its end. -/
def recordText (method path service : Text) : Text :=
  "MediationContext ".toList ++ contextVar ++ " = \x7b".toList ++
    '\n' :: (spell (fieldWords "httpMethod" []) ++ ' ' :: (('"' :: method) ++ ['"', ',']) ++
    '\n' :: (spell (fieldWords "resourcePath" ["string"]) ++
      ' ' :: (('\x60' :: path) ++ ['\x60', ',']) ++
    '\n' :: (spell (fieldWords "serviceBasePath" []) ++ ' ' :: (('"' :: service) ++ ['"']) ++
    '\n' :: "\x7d;".toList)))

/-- The lexemes of a record behind a margin. -/
def recordLexemes (method path service : Text) : List Lexeme :=
  [⟨.ident, "MediationContext".toList⟩, ⟨.ident, contextVar⟩, ⟨.op, ['=']⟩, ⟨.op, ['\x7b']⟩,
    ⟨.ident, "httpMethod".toList⟩, ⟨.op, [':']⟩, stringLiteral margin method, ⟨.op, [',']⟩,
    ⟨.ident, "resourcePath".toList⟩, ⟨.op, [':']⟩, ⟨.ident, "string".toList⟩,
    templateLiteral margin path, ⟨.op, [',']⟩,
    ⟨.ident, "serviceBasePath".toList⟩, ⟨.op, [':']⟩, stringLiteral margin service,
    ⟨.op, ['\x7d']⟩, ⟨.op, [';']⟩]

theorem spells_newline {t u : Text} {ls ks : List Lexeme} (h : (indented margin t).Spells ls)
    (hu : (indented margin u).Spells ks) : (indented margin (t ++ '\n' :: u)).Spells (ls ++ ks) := by
  rw [indented_newline]
  exact h.newline hu

theorem first_line_ne_blank {t u : Text} (hn : '\n' ∉ t) (hb : t.all Text.isBlank = false) :
    ((t ++ u).takeWhile (· != '\n')).all Text.isBlank = false := by
  have hkeep : ∀ c ∈ t, (c != '\n') = true := by
    intro c hc
    simpa using ne_of_mem_of_not_mem hc hn
  rw [List.takeWhile_append_of_pos hkeep, List.all_append, hb, Bool.false_and]

theorem spells_line {t : Text} {ls : List Lexeme} (hn : '\n' ∉ t)
    (hb : t.all Text.isBlank = false) (h : t.Spells ls) :
    (indented margin t).Spells ls := by
  have hfirst := first_line_ne_blank (u := []) hn hb
  have hhang := hang_append_of_not_mem margin hn []
  rw [List.append_nil] at hfirst
  rw [List.append_nil, hang, List.append_nil] at hhang
  rw [indented_eq margin hfirst, hhang]
  exact h.margin margin

theorem spells_field {ws : List Word} (hl : Legible ws [' ']) (hn : '\n' ∉ spell ws)
    (hb : (spell ws).all Text.isBlank = false) {l : Lexeme}
    (hk : l.kind = .string ∨ l.kind = .template) (hr : Reads l []) (u : Text) {q : Char}
    (hq : Text.isBlank q = false) (ht : l.text = hang margin (u ++ [q])) {rest : Text}
    {ls : List Lexeme} (hrest : '\n' ∉ rest) (hu : rest.Spells ls) :
    Text.Spells (indented margin (spell ws ++ ' ' :: (u ++ q :: rest))) (lexemes ws ++ l :: ls) := by
  have hhang : hang margin (spell ws ++ ' ' :: (u ++ q :: rest))
      = spell ws ++ ' ' :: (l.text ++ rest) := by
    have hkept := hang_append_of_not_mem margin hrest []
    rw [List.append_nil, hang, List.append_nil] at hkept
    rw [hang_append_of_not_mem margin hn, hang, if_neg (by decide), hang_concat margin hq, hkept, ht]
  rw [indented_eq margin (first_line_ne_blank hn hb), hhang]
  exact (Text.Spells.literal hl hk hr hu).margin margin

theorem spells_record {method path service : Text} (hm : method.quotable = true)
    (hp : '\x60' ∉ path) (hs : service.quotable = true) :
    Text.Spells (indented margin (recordText method path service))
      (recordLexemes margin method path service) := by
  have hcomma : Text.Spells [','] [⟨.op, [',']⟩] :=
    ⟨_, show Text.scan _ = .ok [⟨⟨.op, [',']⟩, 0⟩] by cbv, rfl⟩
  have hopen : Text.Spells ("MediationContext ".toList ++ contextVar ++ " = \x7b".toList)
      [⟨.ident, "MediationContext".toList⟩, ⟨.ident, contextVar⟩, ⟨.op, ['=']⟩,
        ⟨.op, ['\x7b']⟩] :=
    ⟨_, show Text.scan _ = .ok [⟨⟨.ident, "MediationContext".toList⟩, 0⟩,
      ⟨⟨.ident, contextVar⟩, 17⟩, ⟨⟨.op, ['=']⟩, 30⟩, ⟨⟨.op, ['\x7b']⟩, 32⟩] by cbv, rfl⟩
  have hclose : Text.Spells "\x7d;".toList [⟨.op, ['\x7d']⟩, ⟨.op, [';']⟩] :=
    ⟨_, show Text.scan _ = .ok [⟨⟨.op, ['\x7d']⟩, 0⟩, ⟨⟨.op, [';']⟩, 1⟩] by cbv, rfl⟩
  have hopen := spells_line margin (by decide) (by decide) hopen
  have hclose := spells_line margin (by decide) (by decide) hclose
  have hfields : ∀ ws ∈ [fieldWords "httpMethod" [], fieldWords "resourcePath" ["string"],
      fieldWords "serviceBasePath" []], legibleInBlanks ws [' '] = true ∧ '\n' ∉ spell ws
        ∧ (spell ws).all Text.isBlank = false := by
    simp only [List.forall_mem_cons]
    exact ⟨⟨by cbv, by decide, by decide⟩, ⟨by cbv, by decide, by decide⟩,
      ⟨by cbv, by decide, by decide⟩, by simp⟩
  simp only [List.forall_mem_cons] at hfields
  obtain ⟨hmethod, hpath, hservice, -⟩ := hfields
  have hmethod := spells_field margin (legible_of_blanks hmethod.1) hmethod.2.1 hmethod.2.2
    (.inl rfl) ((reads_stringLiteral margin method).2 hm) ('"' :: method) (by decide) rfl
    (by decide) hcomma
  have hpath := spells_field margin (legible_of_blanks hpath.1) hpath.2.1 hpath.2.2
    (.inr rfl) ((reads_templateLiteral margin path).2 hp) ('\x60' :: path) (by decide) rfl
    (by decide) hcomma
  have hservice := spells_field margin (legible_of_blanks hservice.1) hservice.2.1 hservice.2.2
    (.inl rfl) ((reads_stringLiteral margin service).2 hs) ('"' :: service) (by decide) rfl
    (by decide) .nil
  unfold recordText
  exact spells_newline margin hopen (spells_newline margin hmethod
    (spells_newline margin hpath (spells_newline margin hservice hclose)))

/-! ## Rendering the record -/

open Template

theorem fill_text {values : List (Text × Value)} {ps : List Part} {r : Text}
    (h : fill values ps = .ok r) (t : Text) : fill values (.text t :: ps) = .ok (t ++ r) := by
  rw [fill, fillPart, h]
  rfl

theorem fill_print {values : List (Text × Value)} {ps : List Part} {r name t : Text}
    (h : fill values ps = .ok r) (hv : lookup values name = .ok (.text t)) :
    fill values (.print name :: ps) = .ok (t ++ r) := by
  rw [fill, fillPart, h, hv]
  rfl

/-- Values with different names are found by their names. -/
theorem lookup_of_mem {values : List (Text × Value)} (hd : (values.map (·.1)).Nodup)
    {v : Text × Value} (hv : v ∈ values) : lookup values v.1 = .ok v.2 := by
  have hfind : values.find? (·.1 = v.1) = some v := by
    induction values with
    | nil => cases hv
    | cons w values ih =>
      obtain ⟨hw, hd⟩ := List.nodup_cons.1 hd
      rcases List.mem_cons.1 hv with rfl | hv
      · exact List.find?_cons_of_pos (by simp)
      · have hne : w.1 ≠ v.1 := fun he => hw (List.mem_map.2 ⟨v, hv, he.symm⟩)
        rw [List.find?_cons_of_neg (by simpa using hne), ih hd hv]
  rw [lookup, hfind]

theorem parse_contextRecord : parse Snippet.contextRecord = .ok [.text "MediationContext ".toList,
    .print "context".toList,
    .text (" = \x7b".toList ++ '\n' :: (spell (fieldWords "httpMethod" []) ++ [' ', '"'])),
    .print "method".toList,
    .text ('"' :: ',' :: '\n' ::
      (spell (fieldWords "resourcePath" ["string"]) ++ [' ', '\x60'])),
    .print "resource_path".toList,
    .text ('\x60' :: ',' :: '\n' :: (spell (fieldWords "serviceBasePath" []) ++ [' ', '"'])),
    .print "service_path".toList, .text ('"' :: '\n' :: ("\x7d;".toList ++ ['\n']))] := by
  simp only [Snippet.contextRecord, Snippet.lines, List.flatMap_cons, List.flatMap_nil, fieldWords]
  repeat rw [String.toList_ofList]
  rfl

theorem render_contextRecord (method path service : Text) :
    let values := [("context".toList, Value.text contextVar),
      ("method".toList, .text method), ("resource_path".toList, .text path),
      ("service_path".toList, .text service)]
    render Snippet.contextRecord values = .ok (recordText method path service ++ ['\n']) := by
  intro values
  have hnames : (values.map (·.1)).Nodup := by
    show ["context".toList, "method".toList, "resource_path".toList, "service_path".toList].Nodup
    decide
  have hcontext := lookup_of_mem hnames (.head _)
  have hmethod := lookup_of_mem hnames (.tail _ (.head _))
  have hpath := lookup_of_mem hnames (.tail _ (.tail _ (.head _)))
  have hservice := lookup_of_mem hnames (.tail _ (.tail _ (.tail _ (.head _))))
  rw [render, parse_contextRecord]
  have hnil : fill values [] = .ok [] := by rw [fill]
  show fill values _ = _
  refine (fill_text (fill_print (fill_text (fill_print (fill_text (fill_print (fill_text
    (fill_print (fill_text hnil _) hservice) _) hpath) _) hmethod) _) hcontext) _).trans ?_
  unfold recordText
  simp only [List.append_assoc, List.cons_append, List.nil_append, List.append_nil]

/-- The record of the bundled snippets. -/
theorem record_eq_indented {snippets : Snippets}
    (hs : ∀ s ∈ Snippet.bundled, snippets s.1 = .ok s.2) {width level : Int}
    (hlow : -maxCount - 1 ≤ width * level) (hm : width * level ≤ maxMargin) (ctx : Context) :
    record snippets width ctx level = .ok (indented (width * level).toNat
      (recordText ctx.resourceMethod.upper ctx.resourcePath ctx.servicePath) ++ ['\n']) := by
  have hsnippet : snippets "context_record.bal".toList = .ok Snippet.contextRecord :=
    hs _ (Snippet.mem_bundled ("context_record.bal".toList, Snippet.contextRecord, _)
      (.tail _ (.head _)))
  have hrender : renderSnippet snippets "context_record.bal".toList
      [("context".toList, Value.text contextVar), ("method".toList, .text ctx.resourceMethod.upper),
        ("resource_path".toList, .text ctx.resourcePath),
        ("service_path".toList, .text ctx.servicePath)]
        = .ok (recordText ctx.resourceMethod.upper ctx.resourcePath ctx.servicePath ++ ['\n']) := by
    simp only [renderSnippet, hsnippet, bind, Except.bind]
    rw [render_contextRecord]
    rfl
  have hdrop : ∀ method path service : Text,
      Text.dropWhileEnd (· == '\n') (recordText method path service ++ ['\n'])
        = recordText method path service := by
    intro method path service
    have hlast : ∃ u, recordText method path service = u ++ [';'] := by
      unfold recordText
      exact ⟨_, by
        rw [show "\x7d;".toList = ['\x7d'] ++ [';'] from rfl]
        simp only [← List.append_assoc, ← List.cons_append]
        rfl⟩
    obtain ⟨u, hu⟩ := hlast
    rw [hu]
    simp [Text.dropWhileEnd]
  simp only [record, hrender]
  exact (indent_eq hlow hm _).trans (by rw [hdrop])

/-- The values of a record are its literals exactly if they can stand between quotes. -/
theorem record_spells_iff (fs : FileSystem) (here : List Text) {width level : Int}
    (hw : 0 < width) (hl : 0 < level) (hm : width * level ≤ maxMargin) (ctx : Context) :
    ∃ f, record (SnippetLocation.bundled.read fs here) width ctx level = .ok f
      ∧ (f.Spells (recordLexemes (width * level).toNat ctx.resourceMethod.upper ctx.resourcePath
          ctx.servicePath)
        ↔ ctx.resourceMethod.quotable = true ∧ '\x60' ∉ ctx.resourcePath
          ∧ ctx.servicePath.quotable = true) := by
  have hpos : 0 < width * level := Int.mul_pos hw hl
  have hmin : -maxCount - 1 < 0 := by decide
  refine ⟨_, record_eq_indented (Snippet.read_bundled fs here) (by omega) hm ctx, ?_⟩
  constructor
  · intro h
    have hreads := h.reads
    unfold recordLexemes at hreads
    simp only [List.forall_mem_cons] at hreads
    obtain ⟨-, -, -, -, -, -, hmethod, -, -, -, -, hpath, -, -, -, hservice, -⟩ := hreads
    rw [reads_stringLiteral] at hmethod hservice
    rw [reads_templateLiteral] at hpath
    rw [Text.quotable_upper] at hmethod
    exact ⟨hmethod, hpath, hservice⟩
  · rintro ⟨hmethod, hpath, hservice⟩
    rw [← Text.quotable_upper] at hmethod
    have hnil : Text.Spells [] [] := ⟨[], by decide +kernel, rfl⟩
    have hall := (spells_record (width * level).toNat hmethod hpath hservice).newline hnil
    rwa [List.append_nil] at hall

/-- Whether the first resource of a source has these values. -/
def resourceHas (source method path service : Text) : Bool :=
  (Tree.parse source).toOption.any fun tree => tree.root.children.any fun s =>
    s.children.any fun r =>
      let ctx := ((Context.root tree.root).push s).push r
      r.kind = .resourceAccessorDefinition && ctx.resourceMethod = method
        && ctx.resourcePath = path && ctx.servicePath = service

theorem exists_of_resourceHas {source method path service : Text}
    (h : resourceHas source method path service = true) :
    ∃ tree s r, Tree.parse source = .ok tree ∧ s ∈ tree.root.children ∧ r ∈ s.children
      ∧ r.kind = .resourceAccessorDefinition
      ∧ (((Context.root tree.root).push s).push r).resourceMethod = method
      ∧ (((Context.root tree.root).push s).push r).resourcePath = path
      ∧ (((Context.root tree.root).push s).push r).servicePath = service := by
  obtain ⟨tree, hparse, hany⟩ := exists_of_any h
  simp only [List.any_eq_true, Bool.and_eq_true, decide_eq_true_eq] at hany
  obtain ⟨s, hs, r, hr, ⟨⟨hkind, hmethod⟩, hpath⟩, hservice⟩ := hany
  exact ⟨tree, s, r, hparse, hs, hr, hkind, hmethod, hpath, hservice⟩

theorem record_spells_iff_resource :
    let source : Text :=
      "service /a on x \x7b resource function get b/[int c]() \x7b\x7d \x7d".toList
    ∃ tree s r f, Tree.parse source = .ok tree ∧ s ∈ tree.root.children ∧ r ∈ s.children
      ∧ r.kind = .resourceAccessorDefinition
      ∧ record (SnippetLocation.bundled.read ⟨[]⟩ []) 4 (((Context.root tree.root).push s).push r) 1
        = .ok f
      ∧ f.Spells (recordLexemes 4 (Text.upper "get".toList) "/b/$\x7bc\x7d".toList "/a".toList) := by
  intro source
  have hrun : resourceHas source "get".toList "/b/$\x7bc\x7d".toList "/a".toList = true := by
    simp only [source]
    repeat rw [String.toList_ofList]
    decide +kernel
  obtain ⟨tree, s, r, hparse, hs, hr, hkind, hmethod, hpath, hservice⟩ := exists_of_resourceHas hrun
  obtain ⟨f, hf, hspells⟩ := record_spells_iff ⟨[]⟩ [] (show (0 : Int) < 4 by decide)
    (show (0 : Int) < 1 by decide) (by decide) (((Context.root tree.root).push s).push r)
  rw [hmethod, hpath, hservice] at hspells
  exact ⟨tree, s, r, f, hparse, hs, hr, hkind, hf, hspells.2 (by decide +kernel)⟩

/-- A quote at the end of a service path is taken for the end of its literal, so its backslash
protects the quote behind it. -/
theorem record_of_quoted_service :
    let source : Text :=
      "service \"/a\\\"\" on x \x7b resource function get b() \x7b\x7d \x7d".toList
    ∃ tree s r f, Tree.parse source = .ok tree ∧ s ∈ tree.root.children ∧ r ∈ s.children
      ∧ r.kind = .resourceAccessorDefinition
      ∧ record (SnippetLocation.bundled.read ⟨[]⟩ []) 4 (((Context.root tree.root).push s).push r) 1
        = .ok f
      ∧ f.scan = .error ⟨.unterminatedLiteral, 125⟩ := by
  intro source
  have hrun : resourceHas source "get".toList "/b".toList "/a\\".toList = true := by
    simp only [source]
    repeat rw [String.toList_ofList]
    decide +kernel
  obtain ⟨tree, s, r, hparse, hs, hr, hkind, hmethod, hpath, hservice⟩ := exists_of_resourceHas hrun
  have hf := record_eq_indented (Snippet.read_bundled ⟨[]⟩ []) (show -maxCount - 1 ≤ 4 * 1 by decide)
    (by decide) (((Context.root tree.root).push s).push r)
  rw [hmethod, hpath, hservice] at hf
  exact ⟨tree, s, r, _, hparse, hs, hr, hkind, hf, by decide +kernel⟩

end Fragment

end BalMediation
