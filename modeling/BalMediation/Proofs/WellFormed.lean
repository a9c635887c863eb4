import BalMediation.Proofs.Spans
import Mathlib.Data.List.Induction

/-!
# Well-formed trees

The nodes of every tree stand inside the source and inside one another, in source order, with the
rows and columns of their offsets and with the text that they span (`wellFormed_of_parse`). Only
the declaration of an import carries another text, the name of the module, and only the listener of
a service can be without tokens; it then ends in front of its beginning, with blanks and comments
between.
-/

namespace BalMediation

open Lexer Branch

/-! ## Rows and columns -/

namespace Text

/-- The row of an offset is the number of newlines in front of it, its column the distance from the
last of them. -/
def rowAndColumn (t : Text) (offset : Nat) : Position :=
  ⟨(t.take offset).count '\n', offset - t.lineStart offset⟩

theorem lastLine_concat (t : Text) (c : Char) :
    lastLine (t ++ [c]) = if c = '\n' then [] else lastLine t ++ [c] := by
  by_cases hc : c = '\n' <;> simp [lastLine, hc]

theorem endPoint_eq (t : Text) : t.endPoint = ⟨t.count '\n', (lastLine t).length⟩ := by
  induction t using List.reverseRecOn with
  | nil => rfl
  | append_singleton t c ih =>
    rw [endPoint_append, ih, lastLine_concat]
    by_cases hc : c = '\n' <;> simp [locateFrom, hc]

theorem endPoint_eq_rowAndColumn (t u : Text) : t.endPoint = (t ++ u).rowAndColumn t.length := by
  obtain ⟨front, hfront, -⟩ := exists_lastLine t
  have hlen := congrArg List.length hfront
  rw [List.length_append] at hlen
  rw [endPoint_eq, rowAndColumn, lineStart_append, List.take_left]
  congr 1
  omega

end Text

/-! ## Children -/

theorem Node.mem_walkAll {n : Node} {ns : List Node} (h : n ∈ ns) : n ∈ walkAll ns := by
  induction ns with
  | nil => cases h
  | cons m ns ih =>
    rw [walkAll, List.mem_append]
    rcases List.mem_cons.1 h with rfl | h
    · left
      cases n
      simp [walk]
    · exact .inr (ih h)

theorem Branch.bounds_of_mem_nodesAll {before next : Text} {bs : List Branch} {n : Node}
    (h : n ∈ nodesAll before next bs) :
    (before ++ gapBefore next (wordsAll bs)).length ≤ n.start
      ∧ n.stop ≤ (before ++ spell (wordsAll bs)).length := by
  rw [List.length_append, List.length_append]
  exact bounds_of_mem_walkAll (Node.mem_walkAll h)

theorem Branch.pairwise_nodesAll (before next : Text) (bs : List Branch) :
    (nodesAll before next bs).Pairwise fun c d => c.stop ≤ d.start := by
  induction bs generalizing before with
  | nil => simp
  | cons b bs ih =>
    rw [nodesAll_cons, List.pairwise_append]
    refine ⟨?_, ih _, fun c hc d hd => ?_⟩
    · cases b <;> simp
    · have hd := (bounds_of_mem_nodesAll hd).1
      cases b with
      | word w => simp at hc
      | node kind label cs =>
        rw [nodes_node, List.mem_singleton] at hc
        rw [words_node, List.length_append] at hd
        rw [hc, nodeOver]
        exact Nat.le_trans (Nat.le_add_right _ _) hd

/-! ## Nodes -/

/-- The name in the tokens of an import declaration: what stands between the keyword and `as` or a
semicolon. -/
def moduleName (ts : List Token) : Text :=
  (ts.tail.takeWhile fun t => !endsName t.toLexeme).flatMap (·.text)

/-- What holds of a node in the tree of a source with the tokens `ts`. -/
structure Node.WellFormed (source : Text) (ts : List Token) (n : Node) : Prop where
  stop_le : n.stop ≤ source.length
  start_le : n.start ≤ n.stop ∨ n.kind = .expression ∧ n.tokens ts = []
  within : ∀ c ∈ n.children, n.start ≤ c.start ∧ c.stop ≤ n.stop
  ordered : n.children.Pairwise fun c d => c.stop ≤ d.start
  startPoint : n.startPoint = source.rowAndColumn n.start
  stopPoint : n.stopPoint = source.rowAndColumn n.stop
  value : n.kind ≠ .importDeclaration → ∀ v ∈ n.value, v = source.slice n.start n.stop
  name : n.kind = .importDeclaration → n.value = some (moduleName (n.tokens ts))

theorem exists_spell_eq_gapBefore (tail : Text) (ws : List Word) :
    ∃ u, spell ws ++ tail = gapBefore tail ws ++ u := by
  cases ws with
  | nil => exact ⟨[], by simp⟩
  | cons w ws => exact ⟨w.lexeme.text ++ spell ws ++ tail, by simp⟩

/-- The text of words is the part of the source from the first to the last of them. -/
theorem caption_eq_slice (pre mid post : List Word) (next tail : Text) :
    caption mid = (spell (pre ++ mid ++ post) ++ tail).slice
      (spell pre ++ gapBefore next mid).length (spell pre ++ spell mid).length := by
  cases mid with
  | nil => simp [caption, Text.slice]
  | cons w mid =>
    have hstop : (spell pre ++ spell (w :: mid)).length
        = (spell pre ++ w.gap).length + (w.lexeme.text ++ spell mid).length := by
      simp only [spell_cons, List.length_append]
      omega
    have hsource : spell (pre ++ w :: mid ++ post) ++ tail
        = spell pre ++ w.gap ++ (w.lexeme.text ++ spell mid) ++ (spell post ++ tail) := by simp
    rw [gapBefore_cons, hstop, hsource, Edit.Woven.slice_append, caption]

theorem moduleName_tokensFrom {label : Label} {ws : List Word} (h : Declares label ws) (pos : Nat) :
    labelled ws label = some (moduleName (tokensFrom pos ws)) := by
  obtain ⟨keyword, name, rest, rfl, rfl, hname, w, hw, hends⟩ := h
  obtain ⟨rest, rfl⟩ := List.head?_eq_some_iff.1 hw
  have htake : ∀ (vs : List Word) (pos : Nat), (∀ v ∈ vs, endsName v.lexeme = false) →
      ((tokensFrom pos (vs ++ w :: rest)).takeWhile fun t => !endsName t.toLexeme).flatMap (·.text)
        = vs.flatMap (·.lexeme.text) := by
    intro vs
    induction vs with
    | nil =>
      intro pos _
      simp [tokensFrom, hends]
    | cons v vs ih =>
      intro pos hvs
      have := ih (pos + v.text.length) fun u hu => hvs u (List.mem_cons_of_mem _ hu)
      simp [tokensFrom, hvs v List.mem_cons_self, this]
  simp only [labelled, moduleName, tokensFrom, List.tail_cons, htake name _ hname]

theorem Branch.Stands.wellFormed {ws : List Word} {tail : Text} {n : Node}
    (hws : ∀ w ∈ ws, w.lexeme.text ≠ []) (h : Stands Sound [] tail ws n) :
    n.WellFormed (spell ws ++ tail) (tokensFrom 0 ws) := by
  obtain ⟨kind, label, bs, pre, post, hs, rfl, rfl⟩ := h
  rw [List.nil_append]
  have htokens := tokens_nodeOver hws (gapBefore tail post) kind label
    (nodesAll (spell pre) (gapBefore tail post) bs)
  obtain ⟨u, hu⟩ := exists_spell_eq_gapBefore tail (wordsAll bs ++ post)
  have hstart : spell (pre ++ wordsAll bs ++ post) ++ tail
      = spell pre ++ gapBefore (gapBefore tail post) (wordsAll bs) ++ u := by
    rw [gapBefore_append] at hu
    simp [← hu]
  have hstop : spell (pre ++ wordsAll bs ++ post) ++ tail
      = (spell pre ++ spell (wordsAll bs)) ++ (spell post ++ tail) := by simp
  refine ⟨?_, ?_, fun c hc => bounds_of_mem_nodesAll hc, pairwise_nodesAll _ _ _, ?_, ?_, ?_, ?_⟩
  · rw [hstop, List.length_append]
    exact Nat.le_add_right _ _
  · by_cases hk : kind = .expression
    · cases hw : wordsAll bs with
      | nil =>
        refine .inr ⟨hk, ?_⟩
        rw [hw] at htokens
        exact htokens
      | cons w ws =>
        left
        simp only [nodeOver, gapBefore_cons, spell_cons, List.length_append]
        omega
    · left
      obtain ⟨w, ws, hw⟩ := List.exists_cons_of_ne_nil (hs.ne_nil hk)
      simp only [nodeOver, hw, gapBefore_cons, spell_cons, List.length_append]
      omega
  · rw [hstart]
    exact Text.endPoint_eq_rowAndColumn _ _
  · rw [hstop]
    exact Text.endPoint_eq_rowAndColumn _ _
  · intro hk v hv
    have hown : v = caption (wordsAll bs) := by
      cases label with
      | none => cases hv
      | own => simpa [nodeOver, labelled, eq_comm] using hv
      | name t => exact absurd rfl (hs.unnamed hk t)
    exact hown.trans (caption_eq_slice pre _ post _ tail)
  · intro hk
    rw [htokens]
    exact moduleName_tokensFrom (hs.declares hk) _

namespace Tree

theorem scan_of_legible {ws : List Word} {tail : Text} (hl : Legible ws tail) (ht : Trailing tail) :
    Text.scan (spell ws ++ tail) = .ok (tokensFrom 0 ws) :=
  scanFrom_spell hl ht 0

/-- Every node of every tree is well formed. -/
theorem wellFormed_of_parse {source : Text} {tree : Tree} (h : parse source = .ok tree) :
    ∃ tokens, source.scan = .ok tokens ∧ ∀ n ∈ tree.root.walk, n.WellFormed source tokens := by
  obtain ⟨items, tail, rfl, hv, hl, ht, rfl⟩ := exists_of_parse h
  refine ⟨_, scan_of_legible hl ht, fun n hn => ?_⟩
  simp only [ofBranches, Node.walk, List.mem_cons] at hn
  rcases hn with rfl | hn
  · refine ⟨Nat.le_refl _, .inl (Nat.zero_le _), fun c hc => ?_, pairwise_nodesAll _ _ _, ?_, ?_,
      by simp, by simp⟩
    · have hb := (bounds_of_mem_nodesAll hc).2
      refine ⟨Nat.zero_le _, Nat.le_trans hb ?_⟩
      simp [Phrase.Grammar.words]
    · exact Text.endPoint_eq_rowAndColumn [] _
    · simpa using Text.endPoint_eq_rowAndColumn
        (spell (Phrase.moduleGrammar.words items) ++ tail) []
  · have hsound := Phrase.Grammar.allIn_sound Phrase.ModuleMember.all_sound hv
    exact (exists_branch _ [] tail hsound n hn).wellFormed hl.text_ne_nil

theorem wellFormed_of_parse_service :
    let source : Text := "import a/b as c;\nservice /x on \x7b @h \x7b\x7d resource function get y(
      int n) returns @p int \x7b \x7d \x7d".toList
    ∃ tree tokens, parse source = .ok tree ∧ source.scan = .ok tokens
      ∧ (∃ n ∈ tree.root.walk, n.kind = .importDeclaration ∧ n.value = some "a/b".toList)
      ∧ (∃ n ∈ tree.root.walk, n.kind = .expression ∧ n.stop < n.start)
      ∧ ∀ n ∈ tree.root.walk, n.WellFormed source tokens := by
  intro source
  have hrun : ((parse source).toOption.any fun tree =>
      (tree.root.walk.any fun n => n.kind = .importDeclaration && n.value = some "a/b".toList)
        && tree.root.walk.any fun n => n.kind = .expression && n.stop < n.start) = true := by
    simp only [source]
    rw [String.toList_ofList]
    decide +kernel
  obtain ⟨tree, hparse, hrun⟩ := exists_of_any hrun
  obtain ⟨tokens, hscan, hwell⟩ := wellFormed_of_parse hparse
  simp only [Bool.and_eq_true, List.any_eq_true, decide_eq_true_eq] at hrun
  exact ⟨tree, tokens, hparse, hscan, hrun.1, hrun.2, hwell⟩

end Tree

end BalMediation
