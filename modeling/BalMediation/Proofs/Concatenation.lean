import BalMediation.Proofs.Appending
import BalMediation.Proofs.Rescanning
import BalMediation.Proofs.Spacing

/-!
# Concatenation

A source can be put behind another at a newline. The members of the one stay as they are, those of
the other move down (`parse_concatenation`): only their offsets and rows change, each by the same
amount (`Node.shift`).

The newline may belong to either side. If it ends the first source, the words of the second are
those of its own, behind the gap that the first one leaves (`Composed.exists_parse`), and rows are
counted from the start of a line (`nodesAll_shift`). If it begins the second source, it can be given
to the first instead, since a newline moves every node by one row.
-/

namespace BalMediation

open Lexer Branch Phrase

/-! ## Moving nodes -/

namespace Node

mutual

/-- A node further down: its offsets and rows are greater by the given numbers. -/
def shift (offset rows : Nat) : Node → Node
  | ⟨kind, start, stop, startPoint, stopPoint, value, children⟩ =>
    ⟨kind, start + offset, stop + offset, ⟨startPoint.row + rows, startPoint.column⟩,
      ⟨stopPoint.row + rows, stopPoint.column⟩, value, shiftAll offset rows children⟩

/-- Nodes further down. -/
def shiftAll (offset rows : Nat) : List Node → List Node
  | [] => []
  | n :: ns => shift offset rows n :: shiftAll offset rows ns

end

theorem shiftAll_eq_map (offset rows : Nat) (ns : List Node) :
    shiftAll offset rows ns = ns.map (shift offset rows) := by
  induction ns with
  | nil => rw [shiftAll, List.map_nil]
  | cons n ns ih => rw [shiftAll, List.map_cons, ih]

mutual

theorem shift_shift (i j k l : Nat) : ∀ n : Node, shift i j (shift k l n) = shift (k + i) (l + j) n
  | ⟨kind, start, stop, startPoint, stopPoint, value, children⟩ => by
    rw [shift, shift, shift, shiftAll_shiftAll i j k l children]
    simp only [Nat.add_assoc]

theorem shiftAll_shiftAll (i j k l : Nat) : ∀ ns : List Node,
    shiftAll i j (shiftAll k l ns) = shiftAll (k + i) (l + j) ns
  | [] => by rw [shiftAll, shiftAll, shiftAll]
  | n :: ns => by
    rw [shiftAll, shiftAll, shiftAll, shift_shift i j k l n, shiftAll_shiftAll i j k l ns]

end

end Node

namespace Text

theorem locateFrom_add (row column k : Nat) (t : Text) (n : Nat) :
    locateFrom (row + k) column t n
      = ⟨(locateFrom row column t n).row + k, (locateFrom row column t n).column⟩ := by
  induction t generalizing row column n with
  | nil => cases n <;> rfl
  | cons c t ih =>
    cases n with
    | zero => rfl
    | succ n =>
      rw [locateFrom, locateFrom]
      split
      · rw [Nat.add_right_comm]
        exact ih (row + 1) 0 n
      · exact ih row (column + 1) n

/-- Whether what stands behind a text begins a line. -/
def EndsLine (t : Text) : Prop :=
  t.endPoint.column = 0

theorem endsLine_concat (t : Text) : EndsLine (t ++ ['\n']) := by
  rw [EndsLine, endPoint_eq, lastLine_concat]
  rfl

theorem EndsLine.endPoint_append {a : Text} (h : EndsLine a) (t : Text) :
    (a ++ t).endPoint = ⟨t.endPoint.row + a.count '\n', t.endPoint.column⟩ := by
  have hrow : a.endPoint.row = 0 + a.count '\n' := by
    rw [endPoint_eq, Nat.zero_add]
  rw [BalMediation.Text.endPoint_append, h, hrow, locateFrom_add]
  rfl

end Text

namespace Branch

mutual

theorem nodes_shift {a : Text} (h : Text.EndsLine a) : ∀ (b : Branch) (before next : Text),
    nodes (a ++ before) next b = (nodes before next b).map (Node.shift a.length (a.count '\n'))
  | .word w, before, next => by rw [nodes_word, nodes_word, List.map_nil]
  | .node kind label bs, before, next => by
    have hlen : ∀ t : Text, (a ++ t).length = t.length + a.length := fun t => by
      rw [List.length_append, Nat.add_comm]
    rw [nodes_node, nodes_node, List.map_singleton, nodeOver, nodeOver, Node.shift,
      Node.shiftAll_eq_map, nodesAll_shift h bs before next, List.append_assoc, List.append_assoc,
      h.endPoint_append, h.endPoint_append, hlen, hlen]

/-- Behind a text that ends a line, branches leave the nodes that they leave without it, further
down. -/
theorem nodesAll_shift {a : Text} (h : Text.EndsLine a) : ∀ (bs : List Branch) (before next : Text),
    nodesAll (a ++ before) next bs
      = (nodesAll before next bs).map (Node.shift a.length (a.count '\n'))
  | [], before, next => by rw [nodesAll_nil, nodesAll_nil, List.map_nil]
  | b :: bs, before, next => by
    rw [nodesAll_cons, nodesAll_cons, List.map_append, nodes_shift h b, List.append_assoc,
      nodesAll_shift h bs]

end

/-! ## A gap in front of nodes -/

mutual

theorem nodes_padded (g : Text) : ∀ (b : Branch) (before next : Text), All Sound b →
    b.words ≠ [] → nodes before next (padded g b) = nodes (before ++ g) next b
  | .word w, before, next, _, _ => by rw [padded, nodes_word, nodes_word]
  | .node kind label bs, before, next, hs, hne => by
    rw [all_node] at hs
    rw [words_node] at hne
    have hgap : gapBefore next (Lexer.pad g (wordsAll bs)) = g ++ gapBefore next (wordsAll bs) := by
      obtain ⟨w, ws, hw⟩ := List.exists_cons_of_ne_nil hne
      rw [hw]
      rfl
    rw [padded, nodes_node, nodes_node, nodeOver, nodeOver, wordsAll_padAll, hgap, spell_pad hne,
      labelled_pad, nodesAll_padAll g bs before next hs.2 hs.1.begins]
    simp only [List.append_assoc]

/-- A gap in front of branches is a part of what they stand behind. -/
theorem nodesAll_padAll (g : Text) : ∀ (bs : List Branch) (before next : Text), AllIn Sound bs →
    (∀ b ∈ bs.head?, b.words ≠ []) →
    nodesAll before next (padAll g bs) = nodesAll (before ++ g) next bs
  | [], before, next, _, _ => by rw [padAll, nodesAll_nil, nodesAll_nil]
  | b :: bs, before, next, hs, hbegins => by
    rw [allIn_cons] at hs
    have hne : b.words ≠ [] := hbegins b rfl
    rw [padAll, if_neg (by simpa using hne), nodesAll_cons, nodesAll_cons, words_padded,
      spell_pad hne, nodes_padded g b _ _ hs.1 hne, List.append_assoc]

end

end Branch

/-! ## Sources behind one another -/

/-- Whether the first token of a text is a semicolon. -/
def Text.startsSemicolon (t : Text) : Bool :=
  t.tokenize.toOption.any fun ts => startsOp [';'] (ts.map (·.toLexeme))

theorem Text.Spells.startsSemicolon_eq {t : Text} {ls : List Lexeme} (h : t.Spells ls) :
    t.startsSemicolon = startsOp [';'] ls := by
  obtain ⟨ts, hts, hls⟩ := tokenize_of_spells h
  rw [startsSemicolon, hts, Except.toOption, Option.any_some, hls]
  cases ls <;> rfl

/-- A newline behind words that end in an operator is not a part of them. -/
theorem Phrase.EndsInOperator.getLast?_ne {ws : List Word} (h : EndsInOperator ws) {t : Text}
    (hl : Legible ws t) : (spell ws).getLast? ≠ some '\n' := by
  obtain ⟨init, w, rfl, hk⟩ := h
  have hr : Reads w.lexeme t := by simpa using (legible_append.1 hl).2.2.1
  rw [spell_append, spell_cons, spell_nil, List.append_nil, ← List.append_assoc,
    List.getLast?_append_of_ne_nil _ hr.ne_nil]
  intro hlast
  rw [hr.ident_of_blank hlast (by decide)] at hk
  cases hk

namespace Tree

/-- What a source with a tree is made of. -/
structure Composed (source : Text) (items : List (Item ModuleMember)) (tail : Text) : Prop where
  text : source = spell (moduleGrammar.words items) ++ tail
  valid : moduleGrammar.AllValid none items []
  legible : Legible (moduleGrammar.words items) tail
  trailing : Trailing tail

namespace Composed

variable {a b : Text} {as bs : List (Item ModuleMember)} {gap tail : Text}

theorem of_parse {tree : Tree} (h : parse a = .ok tree) : ∃ as tail, Composed a as tail
    ∧ tree.root.children = nodesAll [] tail (as.map moduleGrammar.itemBranch) := by
  obtain ⟨as, tail, htext, hv, hl, ht, rfl⟩ := exists_of_parse h
  exact ⟨as, tail, ⟨htext, hv, hl, ht⟩, rfl⟩

theorem startsSemicolon_eq (h : Composed a as tail) :
    a.startsSemicolon = startsOp [';'] (lexemes (moduleGrammar.words as)) := by
  rw [h.text]
  exact (Text.Spells.of_words h.legible h.trailing).startsSemicolon_eq

theorem newline (h : Composed a as tail) : Composed (a ++ ['\n']) as (tail ++ ['\n']) := by
  have hgap := h.trailing.append_newline (.space (by decide) .nil)
  refine ⟨?_, h.valid, ?_, .gap hgap⟩
  · rw [h.text, List.append_assoc]
  · simpa using h.legible.append_newline hgap []

/-- A source that ends in a newline has a gap behind its words. -/
theorem gap_of_newline (h : Composed a as tail) (hline : a.getLast? = some '\n') :
    Gap tail ∧ tail ≠ [] := by
  obtain ⟨rfl, hv, hl, ht⟩ := h
  rcases List.eq_nil_or_concat tail with rfl | ⟨t, c, rfl⟩
  · rw [List.append_nil] at hline
    have hne : as ≠ [] := by
      rintro rfl
      cases hline
    exact absurd hline ((endsInOperator_words hv hne).getLast?_ne hl)
  · rw [List.concat_eq_append] at ht hline ⊢
    rw [← List.append_assoc, List.getLast?_concat] at hline
    cases hline
    exact ⟨ht.gap_of_newline, by simp⟩

/-- The tree of a source behind one that ends in a newline. -/
theorem exists_parse (ha : Composed a as gap) (hline : a.getLast? = some '\n')
    (hb : Composed b bs tail) (hfirst : b.startsSemicolon = false) (next : Text) :
    ∃ tree, parse (a ++ b) = .ok tree
      ∧ tree.root.children = nodesAll [] next (as.map moduleGrammar.itemBranch)
        ++ (nodesAll [] tail (bs.map moduleGrammar.itemBranch)).map
          (Node.shift a.length (a.count '\n')) := by
  obtain ⟨hg, hne⟩ := ha.gap_of_newline hline
  have hends : Text.EndsLine a := by
    obtain ⟨u, hu⟩ := List.getLast?_eq_some_iff.1 hline
    rw [hu]
    exact Text.endsLine_concat u
  have hopen : ∀ t, Legible (moduleGrammar.words as) (gap ++ t) :=
    fun t => ha.legible.of_ahead (ahead_gap hg hne t).symm
  have hall := allValid_append_of_complete ha.valid hb.valid
    (hb.startsSemicolon_eq.symm.trans hfirst)
  have hsource : a ++ b = spell (moduleGrammar.words as)
      ++ (gap ++ (spell (moduleGrammar.words bs) ++ tail)) := by
    rw [ha.text, hb.text, List.append_assoc]
  obtain ⟨tail', htree⟩ := exists_parse_of_gap hall hg hopen hb.legible hb.trailing hsource
  have hsound := Grammar.allIn_sound ModuleMember.all_sound hb.valid
  have hbegins : ∀ b ∈ (bs.map moduleGrammar.itemBranch).head?, b.words ≠ [] := fun b hmem =>
    (ModuleMember.serial hb.valid).words_ne_nil b (List.mem_of_mem_head? hmem)
  have hwords : spell (wordsAll (as.map moduleGrammar.itemBranch)) ++ gap = a ++ [] := by
    rw [ha.text, List.append_nil]
    rfl
  refine ⟨_, htree, ?_⟩
  rw [ofBranches, nodesAll_append, nodesAll_padAll gap _ _ _ hsound hbegins, List.nil_append,
    hwords, nodesAll_shift hends, nodesAll_next as [] _ next, nodesAll_next bs [] tail' tail]

/-- Behind a newline, a source has a tree only if it has one without it, which stands one line
further up. -/
theorem of_parse_newline {tree : Tree} (h : parse ('\n' :: b) = .ok tree)
    (hfirst : Text.startsSemicolon ('\n' :: b) = false) :
    ∃ bs tail, Composed b bs tail ∧ b.startsSemicolon = false ∧ tree.root.children
      = (nodesAll [] tail (bs.map moduleGrammar.itemBranch)).map (Node.shift 1 1) := by
  obtain ⟨items, tail, hb, -⟩ := of_parse h
  have hscan : scanFrom 0 ('\n' :: b) = .ok (tokensFrom 0 (moduleGrammar.words items)) := by
    rw [hb.text]
    exact scanFrom_spell hb.legible hb.trailing 0
  rw [scanFrom, if_pos (by decide)] at hscan
  obtain ⟨ws, tail, rfl, hl, ht, hws⟩ := exists_words hscan
  have hlexemes : lexemes ws = lexemes (moduleGrammar.words items) := by
    rw [← tokensFrom_toLexeme (0 + 1) ws, ← hws, tokensFrom_toLexeme]
  have hmembers := Cursor.members_of_allValid hb.valid
  rw [← hlexemes] at hmembers
  obtain ⟨bs, rfl, hv⟩ := Cursor.exists_of_shapeMembers hmembers
  have hcomposed : Composed (spell (moduleGrammar.words bs) ++ tail) bs tail := ⟨rfl, hv, hl, ht⟩
  have hs : Text.startsSemicolon (spell (moduleGrammar.words bs) ++ tail) = false := by
    rw [hcomposed.startsSemicolon_eq, hlexemes, ← hb.startsSemicolon_eq]
    exact hfirst
  have hempty : Composed ['\n'] [] ['\n'] :=
    ⟨rfl, trivial, trivial, .gap (.space (by decide) .nil)⟩
  obtain ⟨tree', htree, hchildren⟩ := hempty.exists_parse rfl hcomposed hs []
  obtain rfl : tree = tree' := Except.ok.inj (h.symm.trans htree)
  exact ⟨bs, tail, hcomposed, hs, by simpa using hchildren⟩

end Composed

/-- The members of a source behind another are those of both, where the second ones stand further
down. -/
theorem parse_concatenation {a b : Text} {s t : Tree} (ha : parse a = .ok s) (hb : parse b = .ok t)
    (hline : a.getLast? = some '\n' ∨ b.head? = some '\n')
    (hfirst : b.startsSemicolon = false) :
    ∃ u, parse (a ++ b) = .ok u
      ∧ u.root.children
        = s.root.children ++ t.root.children.map (Node.shift a.length (a.count '\n')) := by
  obtain ⟨as, tail, ha, hs⟩ := Composed.of_parse ha
  rw [hs]
  rcases hline with hline | hline
  · obtain ⟨bs, tail', hb, ht⟩ := Composed.of_parse hb
    rw [ht]
    exact ha.exists_parse hline hb hfirst tail
  · obtain ⟨b, rfl⟩ := List.head?_eq_some_iff.1 hline
    obtain ⟨bs, tail', hb, hfirst, ht⟩ := Composed.of_parse_newline hb hfirst
    -- The newline goes to the first source, whose nodes do not depend on what comes next.
    obtain ⟨u, hu, hchildren⟩ :=
      ha.newline.exists_parse List.getLast?_concat hb hfirst tail
    refine ⟨u, by simpa using hu, ?_⟩
    rw [hchildren, ht, List.map_map]
    congr 1
    refine List.map_congr_left fun n _ => ?_
    rw [Function.comp_apply, Node.shift_shift, List.length_append, List.count_append,
      Nat.add_comm 1, Nat.add_comm 1]
    rfl

theorem parse_concatenation_comment :
    let a : Text := "import x/y; // end".toList
    let b : Text := "\nservice on p \x7b\n  resource function get q() \x7b \x7d\n\x7d".toList
    ∃ s t u, parse a = .ok s ∧ parse b = .ok t ∧ parse (a ++ b) = .ok u
      ∧ s.root.children.map (·.kind) = [.importDeclaration]
      ∧ t.root.children.map (·.startPoint) = [⟨1, 0⟩]
      ∧ u.root.children = s.root.children ++ t.root.children.map (Node.shift 18 0) := by
  intro a b
  have hrun : ((parse a).toOption.any fun s =>
        s.root.children.map (·.kind) = [.importDeclaration]) = true
      ∧ ((parse b).toOption.any fun t => t.root.children.map (·.startPoint) = [⟨1, 0⟩]) = true
      ∧ b.startsSemicolon = false := by
    simp only [a, b]
    repeat rw [String.toList_ofList]
    decide +kernel
  obtain ⟨ha, hb, hfirst⟩ := hrun
  obtain ⟨s, hs, hkind⟩ := exists_of_any ha
  obtain ⟨t, ht, hpoint⟩ := exists_of_any hb
  obtain ⟨u, hu, hchildren⟩ := parse_concatenation hs ht (.inr rfl) hfirst
  exact ⟨s, t, u, hs, ht, hu, by simpa using hkind, by simpa using hpoint, hchildren⟩

end Tree

end BalMediation
