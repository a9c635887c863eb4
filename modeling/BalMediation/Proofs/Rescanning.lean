import BalMediation.Proofs.Records

/-!
# Rescanning

Lexemes keep apart by themselves. Put on lines of their own, the tokens of a source are cut out of
it again (`tokenize_normalise`), whatever stood between them before: white space goes on with no
lexeme, and a lexeme that holds newlines of its own is read over them.

A source that cannot be cut into tokens still can up to the place at fault
(`stuckAt_of_fault`), which is a quote or a backslash (`next_error`).
-/

namespace BalMediation

open Lexer

/-! ## One token on each line -/

theorem Lexer.Reads.spells {l : Lexeme} (h : Reads l []) : l.text.Spells [l] := by
  have hword : Legible [⟨[], l⟩] [] := ⟨.nil, h, trivial⟩
  simpa using Text.Spells.of_words hword (.gap .nil)

namespace Text

/-- The texts of the tokens of a source, one on each line. -/
def normalise (source : Text) : Except LexicalFault Text :=
  source.scan.map fun tokens => join ['\n'] (tokens.map (·.text))

theorem spells_lines {ls : List Lexeme} (h : ∀ l ∈ ls, Reads l []) :
    Spells (join ['\n'] (ls.map (·.text))) ls := by
  induction ls with
  | nil => exact .nil
  | cons l ls ih =>
    have hfirst := (h l List.mem_cons_self).spells
    have hothers := ih fun k hk => h k (List.mem_cons_of_mem l hk)
    cases ls with
    | nil => simpa [join_cons] using hfirst
    | cons k ls => simpa [join_cons] using hfirst.newline hothers

theorem normalise_of_spells {t : Text} {ls : List Lexeme} (h : t.Spells ls) :
    t.normalise = .ok (join ['\n'] (ls.map (·.text))) := by
  obtain ⟨ts, hts, rfl⟩ := h
  rw [normalise, hts, List.map_map]
  rfl

theorem tokenize_of_spells {t : Text} {ls : List Lexeme} (h : t.Spells ls) :
    ∃ ts, t.tokenize = .ok ts ∧ ts.map (·.toLexeme) = ls ++ [⟨.eof, []⟩] := by
  obtain ⟨ts, hts, rfl⟩ := h
  exact ⟨_, by rw [tokenize, hts]; rfl, by simp [Token.eof]⟩

/-- A source whose tokens are put on lines of their own has the same tokens, and stays as it is if
that is done once more. -/
theorem tokenize_normalise {source : Text} {ts : List Token} (h : source.tokenize = .ok ts) :
    ∃ lines us, source.normalise = .ok lines
      ∧ lines = join ['\n'] (ts.dropLast.map (·.text))
      ∧ lines.tokenize = .ok us ∧ us.map (·.toLexeme) = ts.map (·.toLexeme)
      ∧ lines.normalise = .ok lines := by
  obtain ⟨tokens, hscan⟩ := map_ok h
  have hsource : source.Spells (tokens.map (·.toLexeme)) := ⟨tokens, hscan, rfl⟩
  have hlines := spells_lines hsource.reads
  obtain ⟨us, hus, hlexemes⟩ := tokenize_of_spells hlines
  rw [tokenize, hscan] at h
  cases h
  refine ⟨_, us, normalise_of_spells hsource, ?_, hus, ?_, normalise_of_spells hlines⟩
  · rw [List.dropLast_concat, List.map_map]
    rfl
  · rw [hlexemes, List.map_append]
    rfl

/-- An identifier that ends in a newline, a string with a newline in it, a number with a point in
front of a longer operator, and a bar that belongs to the bracket behind it. -/
theorem tokenize_normalise_escaped :
    let source : Text := "a\\\n \"x\\\n\"1.5...|||\x7d/ /".toList
    ∃ ts lines us, source.tokenize = .ok ts ∧ lines ≠ source
      ∧ ts.map (·.text) = ["a\\\n", "\"x\\\n\"", "1.5", "...", "||", "|\x7d", "/", "/", ""].map
        String.toList
      ∧ lines = join ['\n'] (ts.dropLast.map (·.text))
      ∧ lines.tokenize = .ok us ∧ us.map (·.toLexeme) = ts.map (·.toLexeme)
      ∧ lines.normalise = .ok lines := by
  intro source
  have hrun : (source.tokenize.toOption.any fun ts =>
      join ['\n'] (ts.dropLast.map (·.text)) != source
        && ts.map (·.text) == ["a\\\n", "\"x\\\n\"", "1.5", "...", "||", "|\x7d", "/", "/", ""].map
          String.toList) = true := by
    simp only [source]
    rw [String.toList_ofList]
    decide +kernel
  obtain ⟨ts, hts, hrun⟩ := exists_of_any hrun
  rw [Bool.and_eq_true, bne_iff_ne, beq_iff_eq] at hrun
  obtain ⟨lines, us, -, rfl, hus, hlexemes, hagain⟩ := tokenize_normalise hts
  exact ⟨ts, _, us, hts, hrun.1, hrun.2, rfl, hus, hlexemes, hagain⟩

end Text

/-! ## The place at fault -/

namespace Lexer

/-- The characters that begin a token which may lack its end. -/
def openers : List Char := ['"', '\x60', '\'', '\\']

theorem next_error {c : Char} {cs : Text} {cause : LexicalCause} (h : next c cs = .error cause) :
    c ∈ openers := by
  unfold next at h
  split_ifs at h with hquote htick hdigit hsingle hback hident
  · simp [openers, hquote]
  · simp [openers, htick]
  · simp [openers, hsingle]
  · simp [openers, hback]

/-- Whether a text has words and a gap up to an offset, and a character there that begins no
token. -/
def StuckAt (t : Text) (offset : Nat) (cause : LexicalCause) : Prop :=
  ∃ (ws : List Word) (g : Text) (c : Char) (cs : Text),
    t = spell ws ++ (g ++ c :: cs) ∧ Legible ws (g ++ c :: cs) ∧ Gap g ∧ isSpace c = false
      ∧ next c cs = .error cause ∧ offset = (spell ws ++ g).length

section StuckAt

variable {t : Text} {offset : Nat} {cause : LexicalCause}

theorem StuckAt.space (h : StuckAt t offset cause) {c : Char} (hc : isSpace c = true) :
    StuckAt (c :: t) (offset + 1) cause := by
  obtain ⟨ws, g, d, ds, rfl, hl, hg, hd, hn, rfl⟩ := h
  cases ws with
  | nil => exact ⟨[], c :: g, d, ds, rfl, trivial, .space hc hg, hd, hn, rfl⟩
  | cons w ws =>
    refine ⟨Lexer.pad [c] (w :: ws), g, d, ds, ?_, hl.pad fun _ _ hw => .space hc hw, hg, hd, hn,
      ?_⟩
    · rw [spell_pad (by simp), List.append_assoc]
      rfl
    · rw [spell_pad (by simp), List.append_assoc]
      rfl

theorem StuckAt.comment (h : StuckAt t offset cause) {u : Text} (hu : Comment u)
    (hend : ∀ c ∈ t.head?, c = '\n') : StuckAt (u ++ t) (offset + u.length) cause := by
  obtain ⟨ws, g, d, ds, rfl, hl, hg, hd, hn, rfl⟩ := h
  cases ws with
  | nil =>
    have hhead : g.head? = some '\n' := by
      cases g with
      | nil =>
        obtain rfl := hend d rfl
        cases hd
      | cons e g => rw [hend e rfl]; rfl
    refine ⟨[], u ++ g, d, ds, by simp, trivial, hg.comment_append hu hhead, hd, hn, ?_⟩
    simp [Nat.add_comm]
  | cons w ws =>
    have hpad := hl.pad_comment hu fun e he =>
      hend e (by rw [List.head?_append, Option.mem_def.1 he]; rfl)
    refine ⟨Lexer.pad u (w :: ws), g, d, ds, ?_, hpad, hg, hd, hn, ?_⟩
    · rw [spell_pad (by simp), List.append_assoc]
    · rw [spell_pad (by simp), List.append_assoc, Nat.add_comm]
      exact List.length_append.symm

theorem StuckAt.token (h : StuckAt t offset cause) {l : Lexeme} (hr : Reads l t) :
    StuckAt (l.text ++ t) (offset + l.text.length) cause := by
  obtain ⟨ws, g, d, ds, rfl, hl, hg, hd, hn, rfl⟩ := h
  refine ⟨⟨[], l⟩ :: ws, g, d, ds, by simp, ⟨.nil, hr, hl⟩, hg, hd, hn, ?_⟩
  simp only [spell_cons, List.nil_append, List.length_append]
  omega

end StuckAt

/-- A source that cannot be cut into tokens has words up to the place at fault. -/
theorem stuckAt_of_fault {pos : Nat} {t : Text} {fault : LexicalFault}
    (h : scanFrom pos t = .error fault) :
    ∃ offset, StuckAt t offset fault.cause ∧ fault.offset = pos + offset := by
  fun_induction scanFrom pos t with
  | case1 pos => cases h
  | case2 pos c cs hs ih =>
    obtain ⟨offset, hstuck, ho⟩ := ih h
    exact ⟨_, hstuck.space hs, by omega⟩
  | case3 pos c cs hs hc body =>
    rename_i ih
    obtain ⟨hu, hcs, hn⟩ := comment_split hc
    obtain ⟨offset, hstuck, ho⟩ := ih h
    have hcomment := hstuck.comment hu hn
    rw [List.cons_append, ← hcs] at hcomment
    refine ⟨_, hcomment, ?_⟩
    simp only [ho, List.length_cons, body]
    omega
  | case4 pos c cs hs hc cause hn =>
    cases h
    exact ⟨0, ⟨[], [], c, cs, rfl, trivial, .nil, by simpa using hs, hn, rfl⟩, rfl⟩
  | case5 pos c cs hs hc kind n hn fault' hf ih =>
    cases h
    obtain ⟨offset, hstuck, ho⟩ := ih hf
    have htoken := hstuck.token (reads_of_next (by simpa using hs) (by simpa using hc) hn)
    rw [List.cons_append, List.take_append_drop] at htoken
    refine ⟨_, htoken, ?_⟩
    rw [ho, List.length_cons, List.length_take, Nat.min_eq_left (next_le hn)]
    omega
  | case6 => cases h

end Lexer

namespace Text

/-- A source that cannot be cut into tokens fails at a quote or a backslash, and what stands in
front of it can be cut into tokens. -/
theorem tokenize_take_of_fault {source : Text} {fault : LexicalFault}
    (h : source.tokenize = .error fault) :
    (∃ c ∈ source[fault.offset]?, c ∈ openers)
      ∧ ∃ ts, tokenize (source.take fault.offset) = .ok ts := by
  have hscan : source.scan = .error fault := by
    unfold tokenize at h
    cases hs : source.scan with
    | ok ts => rw [hs] at h; cases h
    | error fault' => rw [hs] at h; cases h; rfl
  obtain ⟨_, ⟨ws, g, c, cs, hsource, hl, hg, -, hn, rfl⟩, ho⟩ := stuckAt_of_fault hscan
  rw [Nat.zero_add] at ho
  rw [← List.append_assoc] at hsource
  rw [hsource, ho, List.take_left]
  refine ⟨⟨c, by simp, next_error hn⟩, ?_⟩
  obtain ⟨ts, hts, -⟩ := tokenize_of_spells (Spells.of_words hl.of_append (.gap hg))
  exact ⟨ts, hts⟩

end Text

end BalMediation
