import BalMediation.Proofs.Spans

/-!
# Tiling

The tokens of a source and what separates them make up the source (`tokens_tile`). A token is the
part of the source between its offsets, and tokens follow one another without overlap. What is left
in front of each token, the end of the source among them, is spaces, tabs, carriage returns,
newlines and comments, and every comment in it reaches up to a newline or to the end of the source.
-/

namespace BalMediation

open Lexer

/-! ## What separates tokens -/

namespace Text

/-- Whether a comment goes from one offset of a source to another: it begins with `#` or `//`, and
its end is the next newline or the end of the source. -/
structure IsComment (source : Text) (start stop : Nat) : Prop where
  begins : ['#'] <+: source.slice start stop ∨ ['/', '/'] <+: source.slice start stop
  inLine : '\n' ∉ source.slice start stop
  ends : source[stop]? = some '\n' ∨ stop = source.length

/-- Whether nothing but white space and comments stands between two offsets of a source. -/
inductive Separates (source : Text) : Nat → Nat → Prop
  | nil (i : Nat) : Separates source i i
  | blank {i j : Nat} {c : Char} : source[i]? = some c → c ∈ [' ', '\t', '\r', '\n'] →
      Separates source (i + 1) j → Separates source i j
  | comment {i j k : Nat} : IsComment source i j → Separates source j k → Separates source i k

theorem isComment_of_append (pre : Text) {t post : Text} (h : Comment t)
    (hpost : ∀ c ∈ post.head?, c = '\n') :
    IsComment (pre ++ t ++ post) pre.length (pre ++ t).length := by
  have hslice := Edit.Woven.slice_append pre t post
  rw [← List.length_append] at hslice
  obtain ⟨hstart, hline⟩ := h
  refine ⟨?_, ?_, ?_⟩
  · rw [hslice]
    unfold startsComment at hstart
    split at hstart
    · exact .inl (List.cons_prefix_cons.2 ⟨rfl, List.nil_prefix⟩)
    · exact .inr (by simp [List.cons_prefix_cons])
    · cases hstart
  · rwa [hslice]
  · cases post with
    | nil => exact .inr (by simp)
    | cons c post =>
      obtain rfl := hpost c rfl
      exact .inl (by simp)

theorem separates_of_gap {g : Text} (h : Gap g) (pre post : Text) :
    Separates (pre ++ g ++ post) pre.length (pre ++ g).length := by
  induction h generalizing pre with
  | nil => simpa using Separates.nil pre.length
  | @space c g hc _ ih =>
    have hrest := ih (pre ++ [c])
    rw [List.append_assoc pre [c] g] at hrest
    refine .blank (c := c) (by simp) ?_ (by simpa using hrest)
    simpa [isSpace, or_assoc] using hc
  | @comment t g ht _ ih =>
    have hrest := ih (pre ++ t)
    have hnewline : ∀ c ∈ ('\n' :: g ++ post).head?, c = '\n' := by simp
    have hcomment := isComment_of_append pre ht hnewline
    rw [List.append_assoc pre t] at hrest
    rw [← List.append_assoc, List.append_assoc pre t] at hcomment
    exact .comment hcomment hrest

theorem Separates.trans {source : Text} {i j k : Nat} (h : Separates source i j)
    (h' : Separates source j k) : Separates source i k := by
  induction h with
  | nil => exact h'
  | blank hi hc _ ih => exact .blank hi hc (ih h')
  | comment hc _ ih => exact .comment hc (ih h')

theorem separates_of_trailing {t : Text} (h : Trailing t) (pre : Text) :
    Separates (pre ++ t) pre.length (pre ++ t).length := by
  cases h with
  | gap hg => simpa using separates_of_gap hg pre []
  | @comment g u hg hu =>
    have hgap := separates_of_gap hg pre u
    have hend : ∀ c ∈ ([] : Text).head?, c = '\n' := by simp
    have hcomment := isComment_of_append (pre ++ g) hu hend
    rw [List.append_nil] at hcomment
    rw [← List.append_assoc]
    exact hgap.trans (.comment hcomment (.nil _))

end Text

/-! ## Tokens -/

/-- What lies in front of each token: the offsets from the end of the token before it, or from
`pos` on if it is the first, up to where it begins. -/
def gapsFrom (pos : Nat) : List Token → List (Nat × Nat)
  | [] => []
  | t :: ts => (pos, t.start) :: gapsFrom t.stop ts

theorem Lexer.next_ne_eof {c : Char} {cs : Text} {n : Nat} : next c cs ≠ .ok (.eof, n) := by
  intro h
  unfold next at h
  split at h
  · split at h <;> cases h
  · split at h
    · split at h <;> cases h
    · split at h
      · cases h
      · split at h
        · split at h <;> cases h
        · split at h
          · split at h <;> cases h
          · split at h <;> cases h

theorem Lexer.Reads.kind_ne_eof {l : Lexeme} {t : Text} (h : Reads l t) : l.kind ≠ .eof := by
  obtain ⟨c, u, -, -, -, hn⟩ := h
  intro hk
  rw [hk] at hn
  exact next_ne_eof hn

theorem Lexer.Legible.exists_reads {ws : List Word} {tail : Text} (h : Legible ws tail) {pos : Nat}
    {t : Token} (ht : t ∈ tokensFrom pos ws) : ∃ rest, Reads t.toLexeme rest := by
  induction ws generalizing pos with
  | nil => cases ht
  | cons w ws ih =>
    rcases List.mem_cons.1 ht with rfl | ht
    · exact ⟨_, h.2.1⟩
    · exact ih h.2.2 ht

/-- The token of a word is the part of the source where the word stands. -/
theorem text_eq_slice {ws : List Word} {t : Token} (pre tail : Text)
    (h : t ∈ tokensFrom pre.length ws) :
    t.text = (pre ++ spell ws ++ tail).slice t.start t.stop := by
  induction ws generalizing pre with
  | nil => cases h
  | cons w ws ih =>
    rcases List.mem_cons.1 h with rfl | h
    · have hslice := Edit.Woven.slice_append (pre ++ w.gap) w.lexeme.text (spell ws ++ tail)
      simpa [Token.stop] using hslice.symm
    · have := ih (pre ++ w.text) (by simpa using h)
      simpa [Word.text] using this

theorem pairwise_tokensFrom {ws : List Word} (hws : ∀ w ∈ ws, w.lexeme.text ≠ []) (pos : Nat) :
    (tokensFrom pos ws).Pairwise fun s t => s.start < t.start ∧ s.stop ≤ t.start := by
  induction ws generalizing pos with
  | nil => exact .nil
  | cons w ws ih =>
    refine .cons (fun t ht => ?_) (ih (fun v hv => hws v (List.mem_cons_of_mem w hv)) _)
    have hpos := List.length_pos_of_ne_nil (hws w List.mem_cons_self)
    have hbound := (bounds_of_mem_tokensFrom ht).1
    simp only [Word.text, List.length_append] at hbound
    simp only [Token.stop]
    omega

theorem separates_tokensFrom {ws : List Word} {tail : Text} (hl : Legible ws tail)
    (ht : Trailing tail) (pre : Text) :
    ∀ g ∈ gapsFrom pre.length
        (tokensFrom pre.length ws ++ [Token.eof (pre ++ spell ws ++ tail).length]),
      (pre ++ spell ws ++ tail).Separates g.1 g.2 := by
  induction ws generalizing pre with
  | nil =>
    intro g hg
    obtain rfl : g = _ := List.mem_singleton.1 hg
    simpa [Token.eof] using Text.separates_of_trailing ht pre
  | cons w ws ih =>
    obtain ⟨hgap, -, hl⟩ := hl
    intro g hg
    rcases List.mem_cons.1 hg with rfl | hg
    · have := Text.separates_of_gap hgap pre (w.lexeme.text ++ spell ws ++ tail)
      simpa using this
    · have hrest := ih hl (pre ++ w.text) g (by
        simpa [Word.text, Token.stop, Nat.add_assoc] using hg)
      simpa [Word.text] using hrest

namespace Text

/-- The tokens of a source and what separates them tile it. -/
theorem tokens_tile {source : Text} {tokens : List Token} (h : source.tokenize = .ok tokens) :
    ∃ body eof, tokens = body ++ [eof]
      ∧ (∀ t ∈ body, t.kind ≠ .eof ∧ t.text ≠ [] ∧ t.text = source.slice t.start t.stop)
      ∧ body.Pairwise (fun s t => s.start < t.start ∧ s.stop ≤ t.start)
      ∧ eof.kind = .eof ∧ eof.start = source.length ∧ eof.stop = source.length
      ∧ ∀ g ∈ gapsFrom 0 tokens, source.Separates g.1 g.2 := by
  obtain ⟨ts, hscan⟩ := map_ok h
  rw [tokenize, hscan] at h
  cases h
  obtain ⟨ws, tail, rfl, hl, ht, rfl⟩ := exists_words hscan
  refine ⟨tokensFrom 0 ws, _, rfl, fun t hmem => ?_, pairwise_tokensFrom hl.text_ne_nil 0, rfl, rfl,
    by simp [Token.stop, Token.eof], ?_⟩
  · obtain ⟨rest, hread⟩ := hl.exists_reads hmem
    exact ⟨hread.kind_ne_eof, hread.ne_nil, text_eq_slice [] tail hmem⟩
  · exact separates_tokensFrom hl ht []

/-- Two comments, a string with an escaped quote, a number with a point and an escaped identifier:
the gap in front of the end holds the second comment. -/
theorem tokens_tile_commented :
    let source : Text := "# a\n\\ b \"\\\"\"1.5...// c".toList
    ∃ tokens body eof, source.tokenize = .ok tokens ∧ tokens = body ++ [eof]
      ∧ body.map (fun t => (t.start, t.stop)) = [(4, 7), (8, 12), (12, 15), (15, 18)]
      ∧ (∀ t ∈ body, t.kind ≠ .eof ∧ t.text ≠ [] ∧ t.text = source.slice t.start t.stop)
      ∧ body.Pairwise (fun s t => s.start < t.start ∧ s.stop ≤ t.start)
      ∧ eof.kind = .eof ∧ eof.start = source.length ∧ eof.stop = source.length
      ∧ ∀ g ∈ gapsFrom 0 tokens, source.Separates g.1 g.2 := by
  intro source
  have hrun : (source.tokenize.toOption.any fun tokens =>
      tokens.dropLast.map (fun t => (t.start, t.stop)) = [(4, 7), (8, 12), (12, 15), (15, 18)])
      = true := by
    simp only [source]
    rw [String.toList_ofList]
    decide +kernel
  obtain ⟨tokens, htokens, hrun⟩ := exists_of_any hrun
  obtain ⟨body, eof, rfl, hrest⟩ := tokens_tile htokens
  rw [List.dropLast_concat, decide_eq_true_eq] at hrun
  exact ⟨_, body, eof, htokens, rfl, hrun, hrest⟩

end Text

end BalMediation
