import BalMediation.Proofs.Appending
import BalMediation.Proofs.WellFormed

/-!
# Seams

A source with an appendix is cut at the seam between the two. If no member lies across it, it falls
between two words, where blanks and comments stand, and the words in front of it are complete
without the rest (`Legible.of_append`, `Trailing.of_newline`). So a source has a tree exactly if it
has one with the appendix in which no member lies across the seam (`parse_append_iff`).
-/

namespace BalMediation

open Branch Lexer Phrase

/-! ## Cutting a source short -/

/-- Of two ways to cut a list, the one that comes later cuts the rest of the other. -/
theorem exists_eq_append {α : Type} {as bs cs ds : List α} (h : as ++ bs = cs ++ ds)
    (hle : as.length ≤ cs.length) : ∃ xs, cs = as ++ xs ∧ bs = xs ++ ds := by
  rcases List.append_eq_append_iff.1 h with hxs | ⟨xs, rfl, rfl⟩
  · exact hxs
  · rw [List.length_append] at hle
    obtain rfl : xs = [] := List.eq_nil_of_length_eq_zero (by omega)
    exact ⟨[], by simp, by simp⟩

namespace Lexer

theorem Trailing.space {c : Char} {t : Text} (hc : isSpace c = true) (h : Trailing t) :
    Trailing (c :: t) :=
  .gap_append (.space hc .nil) h

theorem Gap.trailing_of_newline {s u v : Text} (h : Gap s) (hs : s = u ++ '\n' :: v) :
    Trailing u := by
  induction h generalizing u with
  | nil => simp at hs
  | @space c g hc _ ih =>
    cases u with
    | nil => exact .gap .nil
    | cons d u =>
      obtain ⟨rfl, hg⟩ := List.cons.inj hs
      exact (ih hg).space hc
  | @comment t g ht _ ih =>
    rcases List.append_eq_append_iff.1 hs with ⟨a, rfl, ha⟩ | ⟨a, rfl, ha⟩
    · refine .comment_append ht (ih ha) fun d hd => ?_
      cases a with
      | nil => cases hd
      | cons e a =>
        cases hd
        exact (List.cons.inj ha).1.symm
    · cases a with
      | nil =>
        rw [List.append_nil] at ht
        exact .comment .nil ht
      | cons e a =>
        obtain ⟨rfl, -⟩ := List.cons.inj ha
        exact absurd (by simp) ht.2

/-- What ends at a newline is complete without what comes behind it. -/
theorem Trailing.of_newline {u v : Text} (h : Trailing (u ++ '\n' :: v)) : Trailing u := by
  generalize hs : u ++ '\n' :: v = s at h
  cases h with
  | gap hg => exact hg.trailing_of_newline hs.symm
  | @comment g t hg ht =>
    rcases List.append_eq_append_iff.1 hs.symm with ⟨a, rfl, rfl⟩ | ⟨a, rfl, ha⟩
    · exact absurd (by simp) ht.2
    · cases a with
      | nil =>
        rw [List.nil_append] at ha
        exact absurd (by simp [← ha]) ht.2
      | cons e a =>
        obtain ⟨rfl, -⟩ := List.cons.inj ha
        exact hg.trailing_of_newline rfl

theorem identLength_of_append {u v : Text} (h : identLength (u ++ v) = 0) : identLength u = 0 := by
  cases u with
  | nil => rfl
  | cons c u =>
    by_cases hc : c = '\\'
    · cases u <;> simp_all [identLength]
    · rw [List.cons_append, identLength_cons hc] at h
      rw [identLength_cons hc]
      split_ifs at h ⊢
      rfl

theorem numberLength_eq_zero_of_append {u v : Text} (h : numberLength (u ++ v) = 0) :
    numberLength u = 0 := by
  cases u with
  | nil => rfl
  | cons c u =>
    have hd : startsDigit u = true → startsDigit (u ++ v) = true := by
      cases u <;> simp [startsDigit]
    rw [List.cons_append, numberLength] at h
    rw [numberLength]
    split_ifs at h with hpart
    rw [if_neg]
    intro hu
    simp only [Bool.or_eq_true, Bool.and_eq_true] at hpart hu
    exact hpart (hu.imp_right fun hp => ⟨hp.1, hd hp.2⟩)

/-- A lexeme can be read if it can be read in front of a longer text. -/
theorem Reads.of_append {l : Lexeme} {u v : Text} (h : Reads l (u ++ v)) : Reads l u := by
  obtain ⟨hl, hends, hslash⟩ := reads_iff.1 h
  refine reads_iff.2 ⟨hl, ?_, fun hs => hslash ⟨hs.1, ?_⟩⟩
  · unfold Ends at hends ⊢
    split
    · simp only [*] at hends
      exact identLength_of_append hends
    · simp only [*] at hends
      exact numberLength_eq_zero_of_append hends
    · simp only [*] at hends
      intro op hop hp
      refine hends op hop ?_
      rw [← List.append_assoc]
      exact hp.trans (List.prefix_append _ _)
    · trivial
  · rw [List.head?_append, hs.2]
    rfl

theorem Legible.of_append {ws : List Word} {u v : Text} (h : Legible ws (u ++ v)) :
    Legible ws u := by
  induction ws with
  | nil => trivial
  | cons w ws ih =>
    obtain ⟨hg, hr, hl⟩ := h
    rw [← List.append_assoc] at hr
    exact ⟨hg, hr.of_append, ih hl⟩

end Lexer

/-! ## Members across a seam -/

/-- Whether a node begins before an offset and ends behind it. -/
def Node.Straddles (n : Node) (offset : Nat) : Prop :=
  n.start < offset ∧ offset < n.stop

/-- If no member lies across an offset, it falls in the gap in front of a member or semicolon. -/
theorem Branch.Serial.exists_split {ks : List Kind} {bs : List Branch} (h : Serial ks bs)
    {before next : Text} {k : Nat} (hns : ∀ n ∈ nodesAll before next bs, ¬ n.Straddles k)
    (hlo : before.length ≤ k) (hhi : k ≤ (before ++ spell (wordsAll bs) ++ next).length) :
    ∃ as cs, bs = as ++ cs ∧ (before ++ spell (wordsAll as)).length ≤ k
      ∧ k ≤ (before ++ spell (wordsAll as) ++ gapBefore next (wordsAll cs)).length := by
  induction bs generalizing before with
  | nil => exact ⟨[], [], rfl, by simpa using hlo, by simpa using hhi⟩
  | cons b bs ih =>
    by_cases hgap : k ≤ (before ++ gapBefore next (wordsAll (b :: bs))).length
    · exact ⟨[], b :: bs, rfl, by simpa using hlo, by simpa using hgap⟩
    · rw [nodesAll_cons] at hns
      have hbehind : (before ++ spell b.words).length ≤ k := by
        rcases h b List.mem_cons_self with ⟨w, rfl, hw⟩ | ⟨kind, label, cs, rfl, -, hcs⟩
        · simp only [Lexeme.isOp, Bool.and_eq_true, beq_iff_eq] at hw
          simp only [words_word, wordsAll_cons, List.cons_append, gapBefore_cons, spell_cons,
            spell_nil, hw.2, List.length_append, List.length_cons, List.length_nil] at hgap ⊢
          omega
        · rw [nodes_node] at hns
          have hnode := hns _ (List.mem_append_left _ List.mem_cons_self)
          obtain ⟨w, ws, hws⟩ := List.exists_cons_of_ne_nil hcs
          simp only [Node.Straddles, nodeOver, words_node, wordsAll_cons, hws, List.cons_append,
            gapBefore_cons] at hnode hgap ⊢
          omega
      obtain ⟨as, cs, rfl, has, hcs⟩ := ih (fun c hc => h c (List.mem_cons_of_mem _ hc))
        (fun n hn => hns n (List.mem_append_right _ hn)) hbehind (by simpa using hhi)
      exact ⟨b :: as, cs, rfl, by simpa using has, by simpa using hcs⟩

namespace Appendix

variable {b btail : Text} {bs : List (Item ModuleMember)} (h : Appendix b bs btail)

include h

theorem exists_newline : ∃ v, b = '\n' :: v := by
  obtain ⟨w, hw, hgap, -⟩ := h.first
  obtain ⟨ws, hws⟩ := List.head?_eq_some_iff.1 hw
  obtain ⟨g, hg⟩ := List.head?_eq_some_iff.1 hgap
  exact ⟨_, by rw [h.text, hws, spell_cons, hg, List.cons_append, List.cons_append,
    List.cons_append]⟩

/-- Words that spell an appendix behind a gap have its lexemes. -/
theorem lexemes_eq {g tail : Text} (hg : Trailing g) {ws : List Word} (hl : Legible ws tail)
    (ht : Trailing tail) (hws : spell ws ++ tail = g ++ b) :
    lexemes ws = lexemes (moduleGrammar.words bs) := by
  have hown := scanFrom_spell hl ht 0
  have hpad : Legible (moduleGrammar.words [] ++ pad g (moduleGrammar.words bs)) btail :=
    h.legible_pad (by simp [Legible]) hg
  have happendix := scanFrom_spell hpad h.trailing 0
  rw [Grammar.words_nil, List.nil_append, h.text_pad, ← hws, hown] at happendix
  have htokens := congrArg (List.map (·.toLexeme)) (Except.ok.inj happendix)
  rwa [Tree.tokensFrom_toLexeme, Tree.tokensFrom_toLexeme, lexemes_pad] at htokens

/-- A gap that goes on into an appendix is complete without it. -/
theorem trailing_of_gap {g tail : Text} {ws : List Word} (hl : Legible ws tail)
    (ht : Trailing tail) (hws : spell ws ++ tail = g ++ b)
    (hle : g.length ≤ (gapBefore tail ws).length) : Trailing g := by
  obtain ⟨v, hv⟩ := h.exists_newline
  cases ws with
  | nil =>
    have htail : tail = g ++ '\n' :: v := by rw [← hv, ← hws]; rfl
    rw [htail] at ht
    exact ht.of_newline
  | cons w ws =>
    obtain ⟨hgap, hreads, -⟩ := hl
    rw [spell_cons, List.append_assoc, List.append_assoc] at hws
    rw [gapBefore_cons] at hle
    obtain ⟨a, ha, hb⟩ := exists_eq_append hws.symm hle
    cases a with
    | nil =>
      -- the first word would begin with the newline
      obtain ⟨c, u, hu, hc, -⟩ := hreads
      rw [hv, hu] at hb
      obtain rfl := (List.cons.inj hb).1
      simp [isSpace] at hc
    | cons c a =>
      rw [hv] at hb
      obtain rfl := (List.cons.inj hb).1
      exact hgap.trailing_of_newline ha

/-- A source has a tree exactly if it has one with an appendix where no member lies across the
seam. -/
theorem parse_append_iff (source : Text) :
    (∃ tree, Tree.parse source = .ok tree) ↔ ∃ tree, Tree.parse (source ++ b) = .ok tree
      ∧ ∀ n ∈ tree.root.children, ¬ n.Straddles source.length := by
  constructor
  · rintro ⟨tree, hparse⟩
    obtain ⟨items, tail, hs, hv, hl, ht, rfl⟩ := Tree.exists_of_parse hparse
    refine ⟨_, h.parse_append hv hl ht hs, fun n hn hstraddles => ?_⟩
    have hlen := congrArg List.length hs
    simp only [Tree.ofBranches, nodesAll_append, List.mem_append] at hn
    rcases hn with hn | hn
    · have hbound := (bounds_of_mem_nodesAll hn).2
      simp only [Node.Straddles, Grammar.words, List.length_append, List.length_nil] at *
      omega
    · have hbound := (bounds_of_mem_nodesAll hn).1
      obtain ⟨w, ws, hw⟩ := List.exists_cons_of_ne_nil h.words_ne_nil
      have hpad : wordsAll (padAll tail (bs.map moduleGrammar.itemBranch))
          = pad tail (w :: ws) := by
        rw [wordsAll_padAll, ← hw]
        rfl
      rw [hpad] at hbound
      simp only [Node.Straddles, Grammar.words, pad, gapBefore_cons, List.nil_append,
        List.length_append] at *
      omega
  · rintro ⟨tree, hparse, hns⟩
    obtain ⟨items, tail, hs, hv, hl, ht, rfl⟩ := Tree.exists_of_parse hparse
    have hlen := congrArg List.length hs
    obtain ⟨as, cs, hsplit, has, hcs⟩ := (ModuleMember.serial hv).exists_split hns (Nat.zero_le _) (by
      simp only [Grammar.words, List.length_append, List.nil_append] at hlen ⊢
      omega)
    obtain ⟨front, back, rfl, rfl, rfl⟩ := List.map_eq_append_iff.1 hsplit
    rw [List.nil_append] at has hcs
    have hwords : moduleGrammar.words (front ++ back)
        = moduleGrammar.words front ++ moduleGrammar.words back := by
      simp [Grammar.words]
    rw [hwords, spell_append, List.append_assoc] at hs
    obtain ⟨g, rfl, hrest⟩ := exists_eq_append hs.symm has
    rw [hwords, legible_append] at hl
    have hg : Trailing g := by
      refine h.trailing_of_gap hl.2 ht hrest ?_
      simp only [List.length_append] at hcs
      exact Nat.le_of_add_le_add_left hcs
    have hback := h.lexemes_eq hg hl.2 ht hrest
    have hfront : moduleGrammar.AllValid none front [] := by
      refine (Grammar.allValid_append.1 hv).1.congr moduleGrammar_local rfl ?_
      rw [List.append_nil, hback, h.startsOp_eq_false]
      rfl
    have hlegible := hl.1
    rw [hrest] at hlegible
    exact ⟨_, Tree.parse_of_valid hfront hlegible.of_append hg⟩

end Appendix

end BalMediation
