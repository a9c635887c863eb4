import BalMediation.Token.Lexer
import Mathlib.Data.List.Basic
import Mathlib.Tactic.NthRewrite

/-!
# Words

A word is a lexeme with the blanks and comments in front of it. Cutting a source into tokens is
writing it as the words it spells, with blanks and comments at its end (`exists_words`,
`scanFrom_spell`).
-/

namespace BalMediation

/-- A lexeme and what separates it from the one before. -/
structure Word where
  gap : Text
  lexeme : Lexeme

/-- The text of a word. -/
def Word.text (w : Word) : Text :=
  w.gap ++ w.lexeme.text

/-- The text that words spell. -/
def spell (ws : List Word) : Text :=
  ws.flatMap Word.text

@[simp] theorem spell_nil : spell [] = [] := rfl

@[simp] theorem spell_cons (w : Word) (ws : List Word) :
    spell (w :: ws) = w.gap ++ w.lexeme.text ++ spell ws := by
  simp [spell, Word.text]

@[simp] theorem spell_append (as bs : List Word) : spell (as ++ bs) = spell as ++ spell bs := by
  simp [spell]

namespace Lexer

/-! ## Gaps -/

/-- A comment without the newline that ends it. -/
def Comment (t : Text) : Prop :=
  startsComment t = true ∧ '\n' ∉ t

/-- Blanks, and comments with the newlines that end them. -/
inductive Gap : Text → Prop
  | nil : Gap []
  | space {c : Char} {g : Text} : isSpace c = true → Gap g → Gap (c :: g)
  | comment {t g : Text} : Comment t → Gap ('\n' :: g) → Gap (t ++ '\n' :: g)

/-- Blanks and comments at the end of a source, where a comment needs no newline. -/
inductive Trailing : Text → Prop
  | gap {g : Text} : Gap g → Trailing g
  | comment {g t : Text} : Gap g → Comment t → Trailing (g ++ t)

theorem startsComment_append {t u : Text} (h : startsComment t = true) :
    startsComment (t ++ u) = true := by
  unfold startsComment at h
  split at h
  · rfl
  · rfl
  · simp at h

theorem Comment.ne_nil {t : Text} (h : Comment t) : t ≠ [] := by
  rintro rfl
  simp [Comment, startsComment] at h

theorem Comment.not_isSpace {c : Char} {t : Text} (h : Comment (c :: t)) : isSpace c = false := by
  obtain ⟨h, -⟩ := h
  unfold startsComment at h
  split at h
  · rename_i heq
    cases heq
    decide
  · rename_i heq
    cases heq
    decide
  · simp at h

theorem Gap.append {g g' : Text} (h : Gap g) (h' : Gap g') : Gap (g ++ g') := by
  induction h with
  | nil => exact h'
  | space hc _ ih => exact .space hc ih
  | comment ht _ ih =>
    rw [List.append_assoc]
    exact .comment ht ih

theorem Gap.of_blank {g : Text} (h : ∀ c ∈ g, isSpace c = true) : Gap g := by
  induction g with
  | nil => exact .nil
  | cons c g ih =>
    exact .space (h c List.mem_cons_self) (ih fun d hd => h d (List.mem_cons_of_mem _ hd))

/-- A newline closes the comment that a source may end with. -/
theorem Trailing.append_newline {t g : Text} (h : Trailing t) (hg : Gap ('\n' :: g)) :
    Gap (t ++ '\n' :: g) := by
  cases h with
  | gap ht => exact ht.append hg
  | comment ht hc =>
    rw [List.append_assoc]
    exact ht.append (.comment hc hg)

theorem Trailing.gap_append {g t : Text} (hg : Gap g) (ht : Trailing t) : Trailing (g ++ t) := by
  cases ht with
  | gap h => exact .gap (hg.append h)
  | comment h hc =>
    rw [← List.append_assoc]
    exact .comment (hg.append h) hc

/-- The comment at the end of a source reaches up to its end. -/
theorem Trailing.gap_of_newline {t : Text} (h : Trailing (t ++ ['\n'])) : Gap (t ++ ['\n']) := by
  generalize hs : t ++ ['\n'] = s at h
  cases h with
  | gap hg => exact hg
  | @comment g u hg hc =>
    exfalso
    obtain ⟨v, d, rfl⟩ := List.eq_nil_or_concat u |>.resolve_left hc.ne_nil
    rw [List.concat_eq_append, ← List.append_assoc] at hs
    have hd := (List.append_inj' hs rfl).2
    simp only [List.cons.injEq, and_true] at hd
    exact hc.2 (by simp [← hd])

/-- A comment runs up to a newline or the end. -/
theorem Comment.takeWhile_append {c : Char} {t r : Text} (h : Comment (c :: t))
    (hr : ∀ d ∈ r.head?, d = '\n') : (t ++ r).takeWhile (· != '\n') = t := by
  have hn : ∀ d ∈ t, (d != '\n') = true := by
    intro d hd
    have : d ≠ '\n' := fun e => h.2 (e ▸ List.mem_cons_of_mem _ hd)
    simpa using this
  rw [List.takeWhile_append_of_pos hn]
  cases r with
  | nil => simp
  | cons d r =>
    obtain rfl := hr d (by simp)
    simp

theorem scanFrom_comment {t r : Text} (h : Comment t) (hr : ∀ c ∈ r.head?, c = '\n') (pos : Nat) :
    scanFrom pos (t ++ r) = scanFrom (pos + t.length) r := by
  cases t with
  | nil => exact absurd rfl h.ne_nil
  | cons c t =>
    rw [List.cons_append, scanFrom, if_neg (by simp [h.not_isSpace]),
      if_pos (by simpa using startsComment_append h.1)]
    simp only [h.takeWhile_append hr, List.drop_left, List.length_cons]
    congr 1
    omega

/-- Reading goes over a gap to what comes behind it. -/
theorem scanFrom_gap {g : Text} (h : Gap g) (t : Text) (pos : Nat) :
    scanFrom pos (g ++ t) = scanFrom (pos + g.length) t := by
  induction h generalizing pos with
  | nil => rfl
  | space hc _ ih =>
    rw [List.cons_append, scanFrom, if_pos hc, ih, List.length_cons]
    congr 1
    omega
  | @comment u g hu _ ih =>
    rw [List.append_assoc, scanFrom_comment hu (by simp), ih, List.length_append]
    congr 1
    omega

theorem scanFrom_trailing {t : Text} (h : Trailing t) (pos : Nat) : scanFrom pos t = .ok [] := by
  cases h with
  | gap hg =>
    have := scanFrom_gap hg [] pos
    rw [List.append_nil] at this
    rw [this, scanFrom]
  | @comment g u hg hu =>
    rw [scanFrom_gap hg]
    have := scanFrom_comment hu (r := []) (by simp) (pos + g.length)
    rw [List.append_nil] at this
    rw [this, scanFrom]

/-! ## Lexemes -/

/-- Whether reading takes this lexeme off the front of a text and leaves `t`. -/
def Reads (l : Lexeme) (t : Text) : Prop :=
  ∃ c u, l.text = c :: u ∧ isSpace c = false ∧ startsComment (c :: (u ++ t)) = false
    ∧ next c (u ++ t) = .ok (l.kind, u.length)

theorem Reads.ne_nil {l : Lexeme} {t : Text} (h : Reads l t) : l.text ≠ [] := by
  obtain ⟨c, u, h, -⟩ := h
  simp [h]

theorem scanFrom_reads {l : Lexeme} {t : Text} (h : Reads l t) (pos : Nat) :
    scanFrom pos (l.text ++ t)
      = (scanFrom (pos + l.text.length) t).map (⟨l, pos⟩ :: ·) := by
  obtain ⟨c, u, hl, hs, hc, hn⟩ := h
  obtain ⟨kind, text⟩ := l
  simp only at hl hn
  subst hl
  rw [List.cons_append, scanFrom, if_neg (by simp [hs]), if_neg (by simp [hc]), hn]
  simp only [List.drop_left, List.take_left, List.length_cons]
  rw [show pos + 1 + u.length = pos + (u.length + 1) by omega]
  cases scanFrom (pos + (u.length + 1)) t <;> rfl

/-- Words that are read one after the other off the front of what they spell before `t`. -/
def Legible : List Word → Text → Prop
  | [], _ => True
  | w :: ws, t => Gap w.gap ∧ Reads w.lexeme (spell ws ++ t) ∧ Legible ws t

/-- The tokens of words whose text begins at offset `pos`. -/
def tokensFrom (pos : Nat) : List Word → List Token
  | [] => []
  | w :: ws => ⟨w.lexeme, pos + w.gap.length⟩ :: tokensFrom (pos + w.text.length) ws

theorem legible_append {as bs : List Word} {t : Text} :
    Legible (as ++ bs) t ↔ Legible as (spell bs ++ t) ∧ Legible bs t := by
  induction as with
  | nil => simp [Legible]
  | cons a as ih => simp [Legible, ih, and_assoc]

theorem scanFrom_spell {ws : List Word} {t : Text} (h : Legible ws t) (ht : Trailing t)
    (pos : Nat) : scanFrom pos (spell ws ++ t) = .ok (tokensFrom pos ws) := by
  induction ws generalizing pos with
  | nil => simpa [tokensFrom] using scanFrom_trailing ht pos
  | cons w ws ih =>
    obtain ⟨hg, hr, hl⟩ := h
    rw [spell_cons, List.append_assoc, List.append_assoc, scanFrom_gap hg, scanFrom_reads hr,
      ih hl, tokensFrom, Word.text, List.length_append, Nat.add_assoc]
    rfl

theorem numberLength_le (t : Text) : numberLength t ≤ t.length := by
  fun_induction numberLength t <;> simp_all

theorem identLength_le (t : Text) : identLength t ≤ t.length := by
  fun_induction identLength t <;> simp_all

theorem stringLength_le {t : Text} {n : Nat} (h : stringLength t = some n) : n ≤ t.length := by
  fun_induction stringLength t generalizing n with
  | case1 => simp at h
  | case2 => simp at h
  | case3 d rest ih =>
    obtain ⟨m, hm, rfl⟩ := Option.map_eq_some_iff.1 h
    have := ih hm
    simp only [List.length_cons]
    omega
  | case4 => simp_all
  | case5 => simp at h
  | case6 c cs _ _ _ ih =>
    obtain ⟨m, hm, rfl⟩ := Option.map_eq_some_iff.1 h
    have := ih hm
    simp only [List.length_cons]
    omega

theorem templateLength_le {t : Text} {n : Nat} (h : templateLength t = some n) :
    n ≤ t.length := by
  fun_induction templateLength t generalizing n with
  | case1 => simp at h
  | case2 => simp_all
  | case3 c cs _ ih =>
    obtain ⟨m, hm, rfl⟩ := Option.map_eq_some_iff.1 h
    have := ih hm
    simp only [List.length_cons]
    omega

theorem operatorLength_le (c : Char) (cs : Text) : operatorLength (c :: cs) ≤ cs.length := by
  unfold operatorLength
  split
  · rename_i op hop
    have hp := List.find?_some hop
    have := (List.isPrefixOf_iff_prefix.1 hp).length_le
    simp only [List.length_cons] at this
    omega
  · exact Nat.zero_le _

/-- A token does not reach beyond the end of its source. -/
theorem next_le {c : Char} {cs : Text} {kind : TokenKind} {n : Nat}
    (h : next c cs = .ok (kind, n)) : n ≤ cs.length := by
  unfold next at h
  split at h
  · split at h <;> cases h
    exact stringLength_le ‹_›
  · split at h
    · split at h <;> cases h
      exact templateLength_le ‹_›
    · split at h
      · cases h
        exact numberLength_le cs
      · split at h
        · split at h <;> cases h
          exact identLength_le cs
        · split at h
          · split at h <;> cases h
            simpa using identLength_le _
          · split at h <;> cases h
            · exact identLength_le cs
            · exact operatorLength_le c cs

/-- Puts a gap in front of the first word. -/
def pad (g : Text) : List Word → List Word
  | [] => []
  | w :: ws => ⟨g ++ w.gap, w.lexeme⟩ :: ws

theorem Legible.pad {g t : Text} {ws : List Word} (h : Legible ws t)
    (hg : ∀ w ∈ ws.head?, Gap w.gap → Gap (g ++ w.gap)) : Legible (pad g ws) t := by
  cases ws with
  | nil => trivial
  | cons w ws => exact ⟨hg w rfl h.1, h.2⟩

theorem spell_pad {g : Text} {ws : List Word} (h : ws ≠ []) : spell (pad g ws) = g ++ spell ws := by
  cases ws with
  | nil => exact absurd rfl h
  | cons w ws => simp [Lexer.pad]

theorem tokensFrom_pad (g : Text) (ws : List Word) (pos : Nat) :
    tokensFrom pos (pad g ws) = tokensFrom (pos + g.length) ws := by
  cases ws with
  | nil => rfl
  | cons w ws => simp [Lexer.pad, tokensFrom, Word.text, Nat.add_assoc]

/-- A comment at the front of a text runs up to a newline or the end. -/
theorem comment_split {c : Char} {cs : Text} (h : startsComment (c :: cs) = true) :
    Comment (c :: cs.takeWhile (· != '\n'))
      ∧ cs = cs.takeWhile (· != '\n') ++ cs.drop (cs.takeWhile (· != '\n')).length
      ∧ ∀ d ∈ (cs.drop (cs.takeWhile (· != '\n')).length).head?, d = '\n' := by
  have hd : cs.drop (cs.takeWhile (· != '\n')).length = cs.dropWhile (· != '\n') := by
    have := List.takeWhile_append_dropWhile (p := (· != '\n')) (l := cs)
    nth_rewrite 2 [← this]
    rw [List.drop_left]
  refine ⟨⟨?_, ?_⟩, ?_, ?_⟩
  · unfold startsComment at h
    split at h
    · rename_i heq
      cases heq
      rfl
    · rename_i heq
      cases heq
      simp [startsComment]
    · simp at h
  · intro hm
    rcases List.mem_cons.1 hm with rfl | hm
    · simp [startsComment] at h
    · simpa using List.all_eq_true.1 List.all_takeWhile _ hm
  · rw [hd, List.takeWhile_append_dropWhile]
  · rw [hd]
    intro d hm
    have := List.head?_dropWhile_not (· != '\n') cs
    rw [Option.mem_def.1 hm] at this
    simpa using this

theorem Gap.comment_append {u g : Text} (hu : Comment u) (hg : Gap g) (hn : g.head? = some '\n') :
    Gap (u ++ g) := by
  cases g with
  | nil => simp at hn
  | cons c g =>
    simp only [List.head?_cons, Option.some.injEq] at hn
    subst hn
    exact .comment hu hg

theorem Trailing.comment_append {u t : Text} (hu : Comment u) (ht : Trailing t)
    (hn : ∀ d ∈ t.head?, d = '\n') : Trailing (u ++ t) := by
  cases t with
  | nil =>
    rw [List.append_nil]
    exact Trailing.comment .nil hu
  | cons c t =>
    obtain rfl := hn c rfl
    generalize hs : '\n' :: t = s at ht
    cases ht with
    | gap hg => exact .gap (hg.comment_append hu (by simp [← hs]))
    | @comment g v hg hv =>
      rw [← List.append_assoc]
      refine .comment (hg.comment_append hu ?_) hv
      cases g with
      | nil =>
        rw [List.nil_append] at hs
        exact absurd (by simp [← hs]) hv.2
      | cons d g =>
        simp only [List.cons_append, List.cons.injEq] at hs
        simp [hs.1.symm]

/-- A comment in front of words that begin with the newline behind it. -/
theorem Legible.pad_comment {u t : Text} {ws : List Word} (h : Legible ws t) (hu : Comment u)
    (hn : ∀ c ∈ (spell ws).head?, c = '\n') : Legible (Lexer.pad u ws) t := by
  refine h.pad fun w hw hg => hg.comment_append hu ?_
  obtain ⟨ws, rfl⟩ := List.head?_eq_some_iff.1 hw
  obtain ⟨d, v, hv, hs, -⟩ := h.2.1
  cases hgap : w.gap with
  | nil =>
    obtain rfl := hn d (by simp [hgap, hv])
    simp [isSpace] at hs
  | cons e g => simpa [hgap] using hn e (by simp [hgap])

/-- The lexeme that a text begins with. -/
theorem reads_of_next {c : Char} {cs : Text} {kind : TokenKind} {n : Nat} (hs : isSpace c = false)
    (hc : startsComment (c :: cs) = false) (hn : next c cs = .ok (kind, n)) :
    Reads ⟨kind, c :: cs.take n⟩ (cs.drop n) := by
  refine ⟨c, cs.take n, rfl, hs, ?_, ?_⟩
  · rwa [List.take_append_drop]
  · rw [List.take_append_drop, hn, List.length_take, Nat.min_eq_left (next_le hn)]

/-- A source that can be cut into tokens is spelled by the words of its tokens. -/
theorem exists_words {pos : Nat} {t : Text} {ts : List Token} (h : scanFrom pos t = .ok ts) :
    ∃ ws tail, t = spell ws ++ tail ∧ Legible ws tail ∧ Trailing tail ∧ ts = tokensFrom pos ws := by
  fun_induction scanFrom pos t generalizing ts with
  | case1 pos =>
    cases h
    exact ⟨[], [], rfl, trivial, .gap .nil, rfl⟩
  | case2 pos c cs hs ih =>
    obtain ⟨ws, tail, rfl, hl, ht, rfl⟩ := ih h
    cases ws with
    | nil =>
      refine ⟨[], c :: tail, rfl, trivial, ?_, rfl⟩
      cases ht with
      | gap hg => exact .gap (.space hs hg)
      | comment hg hu => exact .comment (.space hs hg) hu
    | cons w ws =>
      exact ⟨Lexer.pad [c] (w :: ws), tail, by simp [Lexer.pad],
        hl.pad fun _ _ hg => .space hs hg, ht, (tokensFrom_pad [c] _ pos).symm⟩
  | case3 pos c cs hs hc body =>
    rename_i ih
    obtain ⟨hu, hcs, hn⟩ := comment_split hc
    obtain ⟨ws, tail, hr, hl, ht, rfl⟩ := ih h
    rw [hr] at hcs hn
    cases ws with
    | nil =>
      exact ⟨[], c :: body ++ tail, congrArg (c :: ·) hcs, trivial, .comment_append hu ht hn, rfl⟩
    | cons w ws =>
      refine ⟨Lexer.pad (c :: body) (w :: ws), tail, ?_, hl.pad_comment hu fun d hd => ?_, ht, ?_⟩
      · rw [spell_pad (by simp), List.append_assoc]
        exact congrArg (c :: ·) hcs
      · exact hn d (by rw [List.head?_append, Option.mem_def.1 hd]; rfl)
      · rw [tokensFrom_pad, List.length_cons]
        congr 1
        omega
  | case4 => simp at h
  | case5 => simp at h
  | case6 pos c cs hs hc kind n hn ts hts ih =>
    cases h
    obtain ⟨ws, tail, hr, hl, ht, rfl⟩ := ih hts
    have hle := next_le hn
    have hread := reads_of_next (by simpa using hs) (by simpa using hc) hn
    rw [hr] at hread
    refine ⟨⟨[], ⟨kind, c :: cs.take n⟩⟩ :: ws, tail, ?_, ⟨.nil, hread, hl⟩, ht, ?_⟩
    · simp [← hr]
    · simp only [tokensFrom, Word.text, List.nil_append, List.length_cons, List.length_take,
        List.length_nil, Nat.add_zero, Nat.min_eq_left hle]
      rw [Nat.add_right_comm, Nat.add_assoc]

end Lexer

end BalMediation
