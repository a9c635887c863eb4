import BalMediation.Proofs.Gluing
import BalMediation.Proofs.Sites

/-!
# Insets

Code that is put into a source changes some of its words. Words that can stand for others are read
off the same place, look the same from the left, and begin and end with the same lexemes (`Mends`);
they can be put together (`Mends.append`).

A closed fragment behind an opening parenthesis, or in front of a closing brace, gives such words
(`exists_params`, `exists_block`).
-/

namespace BalMediation

open Lexer Cursor

/-- The words `bs` can stand for `as` in front of `t`, and of what looks like it. -/
structure Mends (t : Text) (as bs : List Word) : Prop where
  legible : ∀ t', Lexer.ahead t' = Lexer.ahead t → Legible bs t'
  ahead : ∀ t', Lexer.ahead t' = Lexer.ahead t →
    Lexer.ahead (spell bs ++ t') = Lexer.ahead (spell as ++ t)
  first : (lexemes bs).head? = (lexemes as).head?
  last : ∀ p, latest p (lexemes bs) = latest p (lexemes as)

namespace Mends

theorem refl {t : Text} {as : List Word} (h : Legible as t) : Mends t as as :=
  ⟨fun _ ht => h.of_ahead ht.symm, fun _ ht => ahead_congr ht _, rfl, fun _ => rfl⟩

theorem append {t : Text} {as as' bs bs' : List Word} (ha : Mends (spell bs ++ t) as as')
    (hb : Mends t bs bs') : Mends t (as ++ bs) (as' ++ bs') := by
  refine ⟨fun t' ht => ?_, fun t' ht => ?_, ?_, fun p => ?_⟩
  · rw [legible_append]
    exact ⟨ha.legible _ (hb.ahead t' ht), hb.legible t' ht⟩
  · rw [spell_append, spell_append, List.append_assoc, List.append_assoc]
    exact ha.ahead _ (hb.ahead t' ht)
  · rw [lexemes_append, lexemes_append, List.head?_append, List.head?_append, ha.first, hb.first]
  · rw [lexemes_append, lexemes_append, latest_append, latest_append, ha.last, hb.last]

end Mends

namespace Phrase

theorem Group.Valid.opening_eq {b : Bracket} {g : Group} (h : g.Valid b) :
    g.opening.lexeme = ⟨.op, b.opening⟩ := by
  have hop := h.opening
  simp only [Lexeme.isOp, Bool.and_eq_true, beq_iff_eq, decide_eq_true_eq] at hop
  obtain ⟨⟨_, kind, text⟩, _, _⟩ := g
  simp_all

theorem Group.Valid.closing_eq {b : Bracket} {g : Group} (h : g.Valid b) :
    g.closing.lexeme = ⟨.op, b.closing⟩ := by
  obtain ⟨hk, ht⟩ := Lexeme.closes?_eq_some.1 h.closing
  obtain ⟨_, _, ⟨_, kind, text⟩⟩ := g
  simp_all

/-- A bracket and what it encloses can stand for another if the inside and the gap behind it can be
read. -/
theorem Group.mends {b : Bracket} {g : Group} (hv : g.Valid b) {t : Text} {inside : List Word}
    {gap : Text} (hgap : Gap gap) (hclose : ∀ t', Reads g.closing.lexeme t')
    (hl : ∀ t', Legible (g.opening :: inside) (gap ++ (g.closing.lexeme.text ++ t'))) :
    Mends t g.words (Group.words ⟨g.opening, inside, ⟨gap, g.closing.lexeme⟩⟩) := by
  have htext : g.opening.lexeme.text = b.opening := by rw [hv.opening_eq]
  have hne : spell [g.opening] ≠ [] ∧ spell [g.opening] ≠ ['.'] ∧ spell [g.opening] ≠ ['\\'] := by
    have hlast : (spell [g.opening]).getLast? = b.opening.getLast? := by
      rw [spell_cons, spell_nil, List.append_nil, htext]
      cases b <;> simp [Bracket.opening]
    refine ⟨?_, ?_, ?_⟩ <;> intro hs <;> rw [hs] at hlast <;>
      cases b <;> simp [Bracket.opening] at hlast
  have hsplit : ∀ (ws : List Word) (u : Text), spell (g.opening :: ws) ++ u
      = spell [g.opening] ++ (spell ws ++ u) := by simp
  refine ⟨fun t' _ => ?_, fun t' _ => ?_, rfl, fun p => ?_⟩
  · show Legible ((g.opening :: inside) ++ [⟨gap, g.closing.lexeme⟩]) t'
    rw [legible_append]
    exact ⟨by simpa using hl t', hgap, hclose _, trivial⟩
  · rw [Group.words, Group.words, hsplit _ t', hsplit _ t, ahead_append hne.1 hne.2.1 hne.2.2,
      ahead_append hne.1 hne.2.1 hne.2.2]
  · simp [Group.words]

end Phrase

/-! ## Statements -/

/-- Whether a text spells nested words wherever no identifier could go on behind it. -/
def Fills (f : Text) : Prop :=
  ∃ ws tail, f = spell ws ++ tail ∧ Nested (lexemes ws) ∧ Gap tail
    ∧ ∀ t, identLength t = 0 → Legible ws (tail ++ t)

namespace Fills

theorem nil : Fills [] :=
  ⟨[], [], rfl, .nil, .nil, fun _ _ => trivial⟩

theorem newline : Fills ['\n'] :=
  ⟨[], ['\n'], rfl, .nil, .space rfl .nil, fun _ _ => trivial⟩

theorem append {f f' : Text} (h : Fills f) (h' : Fills f')
    (hs : ∀ c ∈ f'.head?, isSpace c = true) : Fills (f ++ f') := by
  obtain ⟨ws, tail, rfl, hn, hg, hl⟩ := h
  obtain ⟨ws', tail', rfl, hn', hg', hl'⟩ := h'
  have hzero : ∀ t, identLength t = 0 → identLength (spell ws' ++ tail' ++ t) = 0 := by
    intro t ht
    cases he : spell ws' ++ tail' with
    | nil => exact ht
    | cons c u => exact identLength_space (hs c (by simp [he])) _
  cases ws' with
  | nil =>
    refine ⟨ws, tail ++ tail', by simp, hn, hg.append hg', fun t ht => ?_⟩
    simpa using hl (tail' ++ t) (by simpa using hzero t ht)
  | cons w ws' =>
    refine ⟨ws ++ pad tail (w :: ws'), tail', ?_, ?_, hg', fun t ht => ?_⟩
    · rw [spell_append, spell_pad (by simp)]
      simp
    · rw [lexemes_append, lexemes_pad]
      exact hn.append hn'
    · rw [legible_append, spell_pad (by simp)]
      refine ⟨?_, (hl' t ht).pad fun _ _ hgap => hg.append hgap⟩
      simpa using hl _ (hzero t ht)

end Fills

/-- Whether a text can be cut into tokens whose brackets match. -/
def Balanced (t : Text) : Prop :=
  ∃ tokens, t.scan = .ok tokens ∧ Nested (tokens.map (·.toLexeme))

theorem Balanced.exists_words {f : Text} (h : Balanced f) :
    ∃ ws tail, f = spell ws ++ tail ∧ Nested (lexemes ws) ∧ Legible ws tail ∧ Trailing tail := by
  obtain ⟨tokens, hscan, hn⟩ := h
  obtain ⟨ws, tail, hf, hl, ht, rfl⟩ := Lexer.exists_words hscan
  rw [Tree.tokensFrom_toLexeme] at hn
  exact ⟨ws, tail, hf, hn, hl, ht⟩

/-- Words that end in a blank end in an identifier. -/
theorem exists_last {ws : List Word} {t : Text} (hl : Legible ws t) {c : Char}
    (hc : (spell ws).getLast? = some c) (hs : isSpace c = true) :
    ∃ init w, ws = init ++ [w] ∧ w.lexeme.kind = .ident ∧ w.lexeme.text.getLast? = some c := by
  rcases List.eq_nil_or_concat ws with rfl | ⟨init, w, rfl⟩
  · cases hc
  · rw [List.concat_eq_append] at hl hc ⊢
    have hr : Reads w.lexeme t := by simpa using (legible_append.1 hl).2.2.1
    have hlast : w.lexeme.text.getLast? = some c := by
      obtain ⟨x, v, hx⟩ := List.eq_nil_or_concat w.lexeme.text |>.resolve_left hr.ne_nil
      rw [List.concat_eq_append] at hx
      rw [hx]
      simpa [hx] using hc
    exact ⟨init, w, rfl, hr.ident_of_blank hlast hs, hlast⟩

theorem spell_ident_ne_point {w : Word} (h : Reads ⟨.ident, w.lexeme.text⟩ []) :
    spell [w] ≠ ['.'] := by
  intro hs
  obtain ⟨c, u, hcu, -, -, hn⟩ := h
  simp only at hcu hn
  rw [spell_cons, spell_nil, List.append_nil, hcu] at hs
  obtain ⟨-, hc⟩ : w.gap = [] ∧ c :: u = ['.'] := by
    cases hg : w.gap with
    | nil => exact ⟨rfl, by simpa [hg] using hs⟩
    | cons d r => simp [hg] at hs
  cases hc
  cases next_iff.1 hn with
  | ident _ _ hi => exact absurd hi (by decide)

theorem reads_ident {w : Word} {t t' : Text} (hr : Reads w.lexeme t) (hk : w.lexeme.kind = .ident)
    (ht : identLength t' = 0) : Reads w.lexeme t' := by
  obtain ⟨gap, kind, text⟩ := w
  subst hk
  exact (reads_iff.1 hr).1.ident_of ht

/-- Whether a text is empty, or statements on lines of their own. -/
def ClosedStatements (f : Text) : Prop :=
  f = [] ∨ ((f.head? = some ' ' ∨ f.head? = some '\n') ∧ f.getLast? = some '\n' ∧ Balanced f)

theorem ClosedStatements.isSpace_head {f : Text} (h : ClosedStatements f) :
    ∀ c ∈ f.head?, isSpace c = true := by
  rintro c hc
  rcases h with rfl | ⟨hs | hs, -⟩
  · cases hc
  · rw [hs] at hc
    cases hc
    rfl
  · rw [hs] at hc
    cases hc
    rfl

theorem ClosedStatements.fills {f : Text} (h : ClosedStatements f) : Fills f := by
  rcases h with rfl | ⟨-, hlast, hb⟩
  · exact .nil
  obtain ⟨ws, tail, rfl, hn, hl, ht⟩ := hb.exists_words
  rcases List.eq_nil_or_concat tail with rfl | ⟨r, c, rfl⟩
  · rw [List.append_nil] at hlast
    refine ⟨ws, [], rfl, hn, .nil, fun t hz => ?_⟩
    obtain ⟨init, w, rfl, hk, hw⟩ := exists_last hl hlast rfl
    have hr : Reads w.lexeme [] := by simpa using (legible_append.1 hl).2.2.1
    refine hl.of_last (reads_ident hr hk hz) ?_
    intro hp
    rw [hp] at hw
    cases hw
  · rw [List.concat_eq_append] at ht hlast hl ⊢
    obtain rfl : c = '\n' := by simpa using hlast
    have hg := ht.gap_of_newline
    refine ⟨ws, r ++ ['\n'], rfl, hn, hg, fun t _ => hl.of_ahead ?_⟩
    rw [ahead_gap hg (by simp)]

/-! ## Parameters -/

/-- Whether an identifier is the last that a text spells, with nothing behind it. -/
def EndsInIdentifier (f : Text) : Prop :=
  ∃ tokens k, f.scan = .ok tokens ∧ tokens.getLast? = some k ∧ k.kind = .ident
    ∧ k.stop = f.length

/-- Whether a text is empty, or goes in front of parameters. -/
def ClosedParams (f : Text) : Prop :=
  f = [] ∨ ('#' ∉ f ∧ ¬ ['/', '/'] <:+: f ∧ Balanced f
    ∧ (f.getLast? = some ' ' ∨ EndsInIdentifier f))

theorem Lexer.Trailing.gap_of_no_comment {tail : Text} (h : Trailing tail) (h1 : '#' ∉ tail)
    (h2 : ¬ ['/', '/'] <:+: tail) : Gap tail := by
  cases h with
  | gap hg => exact hg
  | @comment g u hg hu =>
    obtain ⟨hu, -⟩ := hu
    unfold startsComment at hu
    split at hu
    · simp at h1
    · rename_i v
      exact absurd ⟨g, v, by simp⟩ h2
    · cases hu

theorem EndsInIdentifier.exists_last {ws : List Word} {tail : Text}
    (h : EndsInIdentifier (spell ws ++ tail)) (hl : Legible ws tail) (ht : Trailing tail) :
    tail = [] ∧ ∃ init w, ws = init ++ [w] ∧ w.lexeme.kind = .ident := by
  have htokens : ∀ (vs : List Word) (w : Word) (o : Nat), tokensFrom o (vs ++ [w])
      = tokensFrom o vs ++ [⟨w.lexeme, o + (spell vs ++ w.gap).length⟩] := by
    intro vs w
    induction vs with
    | nil => simp [tokensFrom]
    | cons v vs ih =>
      intro o
      simp [tokensFrom, ih, Word.text, Nat.add_assoc]
  obtain ⟨tokens, k, hscan, hk, hident, hstop⟩ := h
  have hscan' : Text.scan (spell ws ++ tail) = .ok (tokensFrom 0 ws) := scanFrom_spell hl ht 0
  rw [hscan'] at hscan
  cases hscan
  rcases List.eq_nil_or_concat ws with rfl | ⟨init, w, rfl⟩
  · cases hk
  · rw [List.concat_eq_append] at hk hstop ⊢
    rw [htokens, List.getLast?_append] at hk
    obtain rfl : _ = k := by simpa using hk
    refine ⟨?_, init, w, rfl, hident⟩
    simp only [Token.stop, spell_append, spell_cons, spell_nil, List.append_nil,
      List.length_append] at hstop
    exact List.eq_nil_of_length_eq_zero (by omega)

theorem ahead_close {gap : Text} (hg : Gap gap) {c : Char} (hc : c ∈ solitary) (t t' : Text) :
    ahead (gap ++ c :: t) = ahead (gap ++ c :: t') := by
  cases gap with
  | nil =>
    have hne : ¬ (c = '.' ∨ c = '\\') := by
      rintro (rfl | rfl) <;> exact absurd hc (by decide)
    simp [ahead, hne]
  | cons d gap => rw [ahead_gap hg (by simp), ahead_gap hg (by simp)]

namespace Phrase

section Params

variable {g : Group} {t : Text}

theorem Group.Valid.closing_text (hv : g.Valid .paren) : g.closing.lexeme.text = [')'] := by
  rw [hv.closing_eq]
  rfl

/-- The inside of parentheses can be read whatever comes behind them. -/
theorem Group.Valid.legible_inside (hv : g.Valid .paren) (hl : Legible g.words t) (t' : Text) :
    Legible g.inside (g.closing.gap ++ ')' :: t') ∧ Gap g.closing.gap := by
  obtain ⟨-, hclosing, -⟩ := (legible_append.1 hl.2.2).2
  have hinside := (legible_append.1 hl.2.2).1
  have hgap : Gap g.closing.gap := (legible_append.1 hl.2.2).2.1
  refine ⟨hinside.of_ahead ?_, hgap⟩
  simpa [hv.closing_text] using ahead_close hgap (show ')' ∈ solitary by decide) t t'

theorem Group.Valid.mends_params (hv : g.Valid .paren) (hl : Legible g.words t)
    {inside : List Word} {gap : Text} (hgap : Gap gap) (hn : Nested (lexemes inside))
    (hread : ∀ t', Legible inside (gap ++ ')' :: t')) :
    Group.Valid .paren ⟨g.opening, inside, ⟨gap, g.closing.lexeme⟩⟩
      ∧ Mends t g.words (Group.words ⟨g.opening, inside, ⟨gap, g.closing.lexeme⟩⟩) := by
  refine ⟨⟨hv.opening, hn, hv.closing⟩, Group.mends hv hgap ?_ fun t' => ⟨hl.1, ?_, ?_⟩⟩
  · intro t'
    rw [hv.closing_eq]
    exact reads_solitary (by decide) t'
  · rw [hv.opening_eq]
    exact reads_solitary (by decide) _
  · rw [hv.closing_text]
    exact hread t'

/-- Words and a gap in front of the parameters, if they can be read there. -/
theorem Group.Valid.exists_inset (hv : g.Valid .paren) (hl : Legible g.words t) {ws : List Word}
    {tail : Text} (hn : Nested (lexemes ws)) (hg : Gap tail)
    (hread : ∀ t', Legible ws (tail ++ (spell g.inside ++ (g.closing.gap ++ ')' :: t')))) :
    ∃ g' : Group, g'.Valid .paren ∧ Mends t g.words g'.words
      ∧ lexemes g'.inside = lexemes ws ++ lexemes g.inside
      ∧ spell g'.words
        = spell [g.opening] ++ (spell ws ++ tail) ++ spell (g.inside ++ [g.closing]) := by
  have hgap : Gap g.closing.gap := (hv.legible_inside hl t).2
  cases hi : g.inside with
  | nil =>
    rw [hi] at hread
    obtain ⟨hv', hm⟩ := hv.mends_params hl (hg.append hgap) hn fun t' => by simpa using hread t'
    exact ⟨_, hv', hm, by simp, by simp [Group.words]⟩
  | cons v vs =>
    have hin := fun t' => (hv.legible_inside hl t').1
    have hvn := hv.inside
    rw [hi] at hin hvn hread
    have hnested : Nested (lexemes (ws ++ pad tail (v :: vs))) := by
      rw [lexemes_append, lexemes_pad]
      exact hn.append hvn
    obtain ⟨hv', hm⟩ := hv.mends_params hl hgap hnested fun t' => by
      rw [legible_append, spell_pad (by simp)]
      refine ⟨?_, (hin t').pad fun _ _ hw => hg.append hw⟩
      simpa using hread t'
    exact ⟨_, hv', hm, by simp, by simp [Group.words, pad]⟩

/-- Parameters that end in an identifier. -/
theorem exists_params_of_ident (hv : g.Valid .paren) (hl : Legible g.words t) {init : List Word}
    {w : Word} (hws : Legible (init ++ [w]) []) (hn : Nested (lexemes (init ++ [w])))
    (hk : w.lexeme.kind = .ident) :
    ∃ g' : Group, g'.Valid .paren ∧ Mends t g.words g'.words
      ∧ spell g'.words
        = spell [g.opening] ++ spell (init ++ [w]) ++ spell (g.inside ++ [g.closing]) := by
  obtain ⟨hin, hgap⟩ := hv.legible_inside hl t
  obtain ⟨hinit, hw, hr, -⟩ := legible_append.1 hws
  have hclose : identLength (g.closing.gap ++ ')' :: t) = 0 :=
    hgap.identLength_append (by decide) (by decide) t
  have hident : Reads ⟨.ident, w.lexeme.text⟩ [] := by
    rw [← hk]
    simpa using hr
  obtain ⟨rs, hrs, hlegible, hnested⟩ := exists_glued hin hv.inside hclose hident
  have hrsne : rs ≠ [] := by
    rintro rfl
    exact hr.ne_nil (List.append_eq_nil_iff.1 hrs).1
  have hninit : Nested (lexemes init) := by
    rw [lexemes_append] at hn
    exact hn.of_concat (plain_of_kind (by simp [hk])).2
  have hall : Nested (lexemes (init ++ pad w.gap rs)) := by
    rw [lexemes_append, lexemes_pad]
    exact hninit.append hnested
  obtain ⟨hv', hm⟩ := hv.mends_params hl hgap hall fun t' => by
    rw [legible_append, spell_pad hrsne, ← hrs]
    refine ⟨hinit.of_ahead ?_, Legible.pad (hlegible.of_ahead ?_) fun _ _ hg => hw.append hg⟩
    · have hbefore : ahead (spell [w] ++ (spell g.inside ++ (g.closing.gap ++ ')' :: t')))
          = ahead (spell [w]) := by
        refine ahead_append ?_ ?_ (legible_append.1 hws).2.spell_ne_backslash _
        · simp [hr.ne_nil]
        · exact spell_ident_ne_point hident
      simpa using hbefore.symm
    · exact ahead_close hgap (by decide) t t'
  refine ⟨_, hv', hm, ?_⟩
  simp [Group.words, spell_pad hrsne, ← hrs]

/-- Parameters in front of others in their parentheses. -/
theorem exists_params (hv : g.Valid .paren) (hl : Legible g.words t) {f : Text}
    (hf : ClosedParams f) :
    ∃ g' : Group, g'.Valid .paren ∧ Mends t g.words g'.words
      ∧ spell g'.words = spell [g.opening] ++ f ++ spell (g.inside ++ [g.closing]) := by
  rcases hf with rfl | ⟨hhash, hslash, hb, hend⟩
  · exact ⟨g, hv, .refl hl, by simp [Group.words]⟩
  obtain ⟨ws, tail, rfl, hn, hws, htail⟩ := hb.exists_words
  have hg : Gap tail := htail.gap_of_no_comment
    (fun hm => hhash (List.mem_append_right _ hm))
    (fun hm => hslash (hm.trans (List.suffix_append _ _).isInfix))
  by_cases hnil : tail = []
  · subst hnil
    have hlast : ∃ init w, ws = init ++ [w] ∧ w.lexeme.kind = .ident := by
      rcases hend with hend | hend
      · rw [List.append_nil] at hend
        obtain ⟨init, w, hw, hk, -⟩ := exists_last hws hend rfl
        exact ⟨init, w, hw, hk⟩
      · exact (hend.exists_last hws htail).2
    obtain ⟨init, w, rfl, hk⟩ := hlast
    rw [List.append_nil]
    exact exists_params_of_ident hv hl hws hn hk
  · obtain ⟨g', hv', hm, -, hspell⟩ := hv.exists_inset hl hn hg fun t' =>
      hws.of_ahead (ahead_gap hg hnil _).symm
    exact ⟨g', hv', hm, hspell⟩

end Params

end Phrase

/-! ## Blocks -/

/-- A blank at the end of an identifier is protected by a backslash. -/
theorem exists_escape : ∀ {u : Text} {c : Char}, identLength u = u.length →
    u.getLast? = some c → isSpace c = true → ∃ x, u = x ++ ['\\', c]
  | [], c, _, hl, _ => by cases hl
  | [d], c, h, hl, hc => by
    obtain rfl : d = c := by simpa using hl
    obtain ⟨hp, he⟩ := isIdentPart_of_isSpace hc
    rw [identLength_eq_zero hp he] at h
    cases h
  | d :: e :: u, c, h, hl, hc => by
    by_cases hd : d = '\\'
    · cases u with
      | nil =>
        cases hl
        exact ⟨[], by simp [hd]⟩
      | cons a u =>
        simp only [identLength, hd, if_true, List.length_cons] at h
        obtain ⟨x, hx⟩ := exists_escape (c := c)
          (show identLength (a :: u) = (a :: u).length by simp only [List.length_cons]; omega)
          (by simpa using hl) hc
        exact ⟨d :: e :: x, by simp [hx]⟩
    · rw [identLength_cons hd] at h
      split_ifs at h
      have hlen : (d :: e :: u).length = (e :: u).length + 1 := List.length_cons
      obtain ⟨x, hx⟩ := exists_escape (c := c)
        (show identLength (e :: u) = (e :: u).length by omega) (by simpa using hl) hc
      exact ⟨d :: x, by simp [hx]⟩

theorem exists_escape_of_reads {a t : Text} (h : Reads ⟨.ident, a⟩ t) {c : Char}
    (hl : a.getLast? = some c) (hc : isSpace c = true) : ∃ x, a = x ++ ['\\', c] := by
  obtain ⟨d, u, rfl, hs, -, hn⟩ := h
  obtain ⟨hn, -⟩ := next_append.1 hn
  by_cases hq : d = '\''
  · subst hq
    have hu : identLength u = u.length := (next_quoted.1 hn).2.2
    cases u with
    | nil =>
      cases hl
      exact absurd hc (by decide)
    | cons e u =>
      obtain ⟨x, hx⟩ := exists_escape hu (by simpa using hl) hc
      exact ⟨'\'' :: x, by simp [hx]⟩
  · exact exists_escape (identLength_of_next hn hq) hl hc

/-- A gap can be cut behind a newline. -/
theorem Lexer.Gap.of_newline {g r : Text} (h : Gap (g ++ '\n' :: r)) : Gap (g ++ ['\n']) := by
  generalize hs : g ++ '\n' :: r = s at h
  induction h generalizing g with
  | nil => simp at hs
  | @space c s hc _ ih =>
    cases g with
    | nil => exact .space rfl .nil
    | cons d g =>
      obtain ⟨rfl, htail⟩ := List.cons.inj hs
      exact .space hc (ih htail)
  | @comment u s hu _ ih =>
    rcases List.append_eq_append_iff.1 hs with ⟨a, ha, hb⟩ | ⟨a, ha, hb⟩
    · cases a with
      | nil =>
        rw [List.append_nil] at ha
        subst ha
        exact .comment hu (.space rfl .nil)
      | cons d a =>
        obtain ⟨rfl, -⟩ := List.cons.inj hb
        exact absurd (by simp [ha]) hu.2
    · cases a with
      | nil =>
        rw [List.append_nil] at ha
        subst ha
        exact .comment hu (.space rfl .nil)
      | cons d a =>
        have hd : d = '\n' := by simpa using (List.cons.inj hb).1.symm
        subst hd
        rw [ha, List.append_assoc]
        exact .comment hu (ih (g := '\n' :: a) hb.symm)

namespace Phrase

theorem Group.legible_gap {g : Group} {t : Text} (hl : Legible g.words t) : Gap g.closing.gap :=
  (legible_append.1 hl.2.2).2.1

/-- Words do not end in a newline and blanks behind it: a blank at their end has a backslash in
front of it. -/
theorem blanks_eq_nil_of_legible {ws : List Word} {t front blanks : Text} (hl : Legible ws t)
    (hs : spell ws = front ++ '\n' :: blanks) (hb : ∀ c ∈ blanks, isSpace c = true) :
    blanks = [] := by
  rcases List.eq_nil_or_concat blanks with rfl | ⟨x, c, rfl⟩
  · rfl
  exfalso
  rw [List.concat_eq_append] at hs hb
  have hc : isSpace c = true := hb c (by simp)
  rw [← List.cons_append, ← List.append_assoc] at hs
  obtain ⟨init, w, hw, hk, hlast⟩ := exists_last hl (by rw [hs, List.getLast?_concat]) hc
  rw [hw] at hl
  have hr : Reads ⟨.ident, w.lexeme.text⟩ (spell [] ++ t) := by
    rw [← hk]
    exact (legible_append.1 hl).2.2.1
  obtain ⟨y, hy⟩ := exists_escape_of_reads hr hlast hc
  have hback : front ++ '\n' :: x = spell init ++ w.gap ++ y ++ ['\\'] := by
    refine (List.append_inj' ?_ (rfl : [c].length = [c].length)).1
    rw [← hs, hw]
    simp [hy]
  rcases List.eq_nil_or_concat x with rfl | ⟨x, d, rfl⟩
  · exact absurd (List.append_inj' hback rfl).2 (by decide)
  · rw [List.concat_eq_append, ← List.cons_append, ← List.append_assoc] at hback
    obtain rfl : d = '\\' := by simpa using (List.append_inj' hback rfl).2
    exact absurd (hb '\\' (by simp)) (by decide)

/-- The place where code goes into a block lies in the gap in front of the closing brace. -/
theorem Group.exists_cut {g : Group} (hv : g.Valid .brace) {t : Text} (hl : Legible g.words t)
    (before : Text) :
    ∃ g₁ g₂, g.closing.gap = g₁ ++ g₂ ∧ Gap g₁ ∧ Gap g₂
      ∧ g.mid.take (g.cut before) = spell g.inside ++ g₁ ∧ g.mid.drop (g.cut before) = g₂ := by
  have hgap := Group.legible_gap hl
  by_cases ha : g.Alone before
  · obtain ⟨front, htake, hdrop⟩ := Group.take_cut hv ha
    have hblank : ∀ c ∈ Text.lastLine (g.upto before), isSpace c = true := by
      intro c hc
      have := List.all_eq_true.1 ha c hc
      simp only [Text.indents, Bool.or_eq_true, beq_iff_eq] at this
      rcases this with rfl | rfl <;> rfl
    have hmid : spell g.inside ++ g.closing.gap
        = (front ++ ['\n']) ++ Text.lastLine (g.upto before) := by
      rw [← htake, ← hdrop, List.take_append_drop]
      rfl
    rcases List.append_eq_append_iff.1 hmid with ⟨a, ha', hb⟩ | ⟨a, ha', hb⟩
    · refine ⟨a, _, hb, ?_, .of_blank hblank, by rw [htake, ha'], hdrop⟩
      rcases List.eq_nil_or_concat a with rfl | ⟨x, c, rfl⟩
      · exact .nil
      · rw [List.concat_eq_append] at ha' hb ⊢
        obtain rfl : '\n' = c := by
          rw [← List.append_assoc] at ha'
          simpa using (List.append_inj' ha' rfl).2
        rw [hb, List.append_assoc] at hgap
        exact hgap.of_newline
    -- Otherwise the blanks would belong to the last word inside.
    · obtain rfl : a = [] := blanks_eq_nil_of_legible (legible_append.1 hl.2.2).1
        (show _ = front ++ '\n' :: a by simpa using ha') fun c hc => hblank c (by simp [hb, hc])
      rw [List.append_nil] at ha'
      rw [List.nil_append] at hb
      exact ⟨[], _, hb.symm, .nil, .of_blank hblank, by simp [htake, ha'], hdrop⟩
  · have hcut : g.cut before = g.mid.length := if_neg ha
    refine ⟨g.closing.gap, [], by simp, hgap, .nil, ?_, ?_⟩
    · rw [hcut, List.take_length]
      rfl
    · rw [hcut, List.drop_length]

section Block

variable {g : Group} {t : Text}

theorem Group.Valid.mends_block (hv : g.Valid .brace) {inside : List Word} {gap : Text}
    (hgap : Gap gap) (hn : Nested (lexemes inside))
    (hread : ∀ t', Legible (g.opening :: inside) (gap ++ '\x7d' :: t')) :
    Group.Valid .brace ⟨g.opening, inside, ⟨gap, g.closing.lexeme⟩⟩
      ∧ Mends t g.words (Group.words ⟨g.opening, inside, ⟨gap, g.closing.lexeme⟩⟩) := by
  refine ⟨⟨hv.opening, hn, hv.closing⟩, Group.mends hv hgap ?_ fun t' => ?_⟩
  · intro t'
    rw [hv.closing_eq]
    exact reads_solitary (by decide) t'
  · rw [hv.closing_eq]
    exact hread t'

/-- The words up to a place in front of the closing brace can be read with blanks behind them. -/
theorem Group.legible_front (hl : Legible g.words t) {g₁ g₂ f : Text}
    (hsplit : g.closing.gap = g₁ ++ g₂) (hg : Gap g₁) (hne : f ≠ [])
    (hs : ∀ c ∈ f.head?, isSpace c = true) (u : Text) :
    Legible (g.opening :: g.inside) (g₁ ++ (f ++ u)) := by
  have hfront : Legible ((g.opening :: g.inside) ++ [g.closing]) t := hl
  have hfront : Legible (g.opening :: g.inside) (g₁ ++ (g₂ ++ (g.closing.lexeme.text ++ t))) := by
    simpa [hsplit] using (legible_append.1 hfront).1
  by_cases h₁ : g₁ = []
  · obtain ⟨c, r, rfl⟩ := List.exists_cons_of_ne_nil hne
    rw [h₁]
    exact hfront.of_space (hs c rfl)
  · refine hfront.of_ahead ?_
    rw [ahead_gap hg h₁, ahead_gap hg h₁]

/-- Statements at a place in front of the closing brace where the words before them can be read. -/
theorem Group.Valid.exists_filled (hv : g.Valid .brace) (hl : Legible g.words t) {g₁ g₂ f : Text}
    (hsplit : g.closing.gap = g₁ ++ g₂) (hg₁ : Gap g₁) (hg₂ : Gap g₂) (hf : Fills f)
    (hfront : f ≠ [] → ∀ u, Legible (g.opening :: g.inside) (g₁ ++ (f ++ u))) :
    ∃ g' : Group, g'.Valid .brace ∧ Mends t g.words g'.words
      ∧ spell g'.words
        = spell [g.opening] ++ (spell g.inside ++ g₁) ++ f ++ (g₂ ++ g.closing.lexeme.text) := by
  by_cases hne : f = []
  · subst hne
    exact ⟨g, hv, .refl hl, by simp [Group.words, hsplit]⟩
  have hfront := hfront hne
  obtain ⟨ws, tail, rfl, hn, htail, hread⟩ := hf
  have hzero : ∀ t', identLength (g₂ ++ '\x7d' :: t') = 0 :=
    hg₂.identLength_append (by decide) (by decide)
  cases ws with
  | nil =>
    obtain ⟨hv', hm⟩ := hv.mends_block (hg₁.append (htail.append hg₂)) hv.inside fun t' => by
      simpa using hfront (g₂ ++ '\x7d' :: t')
    exact ⟨_, hv', hm, by simp [Group.words]⟩
  | cons w ws =>
    have hnested : Nested (lexemes (g.inside ++ pad g₁ (w :: ws))) := by
      rw [lexemes_append, lexemes_pad]
      exact hv.inside.append hn
    obtain ⟨hv', hm⟩ := hv.mends_block (htail.append hg₂) hnested fun t' => by
      rw [← List.cons_append, legible_append, spell_pad (by simp)]
      refine ⟨by simpa using hfront (g₂ ++ '\x7d' :: t'), ?_⟩
      refine Legible.pad ?_ fun _ _ hg => hg₁.append hg
      simpa using hread _ (hzero t')
    exact ⟨_, hv', hm, by simp [Group.words, pad]⟩

/-- Statements at the end of a block. -/
theorem exists_block (hv : g.Valid .brace) (hl : Legible g.words t) (before : Text) {f : Text}
    (hf : Fills f) (hs : ∀ c ∈ f.head?, isSpace c = true) :
    ∃ g' : Group, g'.Valid .brace ∧ Mends t g.words g'.words
      ∧ spell g'.words = spell [g.opening] ++ g.mid.take (g.cut before) ++ f
        ++ (g.mid.drop (g.cut before) ++ g.closing.lexeme.text) := by
  obtain ⟨g₁, g₂, hsplit, hg₁, hg₂, htake, hdrop⟩ := Group.exists_cut hv hl before
  rw [htake, hdrop]
  exact hv.exists_filled hl hsplit hg₁ hg₂ hf fun hne => Group.legible_front hl hsplit hg₁ hne hs

end Block

end Phrase

end BalMediation
