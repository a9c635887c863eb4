import BalMediation.Mediation
import BalMediation.Proofs.Agreement
import BalMediation.Proofs.Batches
import BalMediation.Proofs.Gluing
import BalMediation.Proofs.Skeletons

/-!
# Appending

Text that begins on a new line with a member, and brings neither imports nor services, can be
appended to every source that has a tree: no member of the source changes, no node moves, and the
same code goes in (`applied_append`). The boilerplate is such a text (`exists_appendix`), so the
mediation of a document is that of its own text with the boilerplate behind it.
-/

namespace BalMediation

open Branch Segment Lexer

/-! ## Nodes that do not depend on what comes next -/

/-- Whether the nodes of branches are the same in front of every gap. -/
structure Settled (bs : List Branch) : Prop where
  ne_nil : wordsAll bs ≠ []
  nodes_eq : ∀ before next next' : Text, nodesAll before next bs = nodesAll before next' bs

namespace Settled

theorem word (w : Word) : Settled [.word w] :=
  ⟨by simp, by simp⟩

theorem words {ws : List Word} (h : ws ≠ []) : Settled (ws.map .word) :=
  ⟨by simpa using h, by simp⟩

theorem append {bs : List Branch} (h : Settled bs) (as : List Branch) : Settled (as ++ bs) := by
  have hgap : ∀ next next' : Text,
      gapBefore next (wordsAll bs) = gapBefore next' (wordsAll bs) := by
    intro next next'
    obtain ⟨w, ws, hw⟩ := List.exists_cons_of_ne_nil h.ne_nil
    rw [hw]
    rfl
  refine ⟨by simp [h.ne_nil], fun before next next' => ?_⟩
  rw [nodesAll_append, nodesAll_append, hgap next next', h.nodes_eq _ next next']

theorem node {bs : List Branch} (h : Settled bs) (kind : Kind) (label : Label) :
    Settled [.node kind label bs] := by
  refine ⟨by simpa using h.ne_nil, fun before next next' => ?_⟩
  obtain ⟨w, ws, hw⟩ := List.exists_cons_of_ne_nil h.ne_nil
  simp only [nodesAll_cons, nodes_node, nodesAll_nil, wordsAll_nil, gapBefore_nil, nodeOver, hw,
    gapBefore_cons, h.nodes_eq before next next']

theorem leaf (kind : Kind) (w : Word) : Settled [.leaf kind w] :=
  (word w).node kind .own

end Settled

namespace Phrase

theorem Body.settled (b : Body) : Settled b.branches := by
  cases b with
  | block g =>
    have hclose : Settled [.leaf .closeBrace g.closing] := .leaf _ _
    exact (hclose.append (.leaf .openBrace g.opening :: g.inside.map .word)).node _ _
  | clause sign content semicolon => exact (Settled.words (by simp)).node _ _
  | bare semicolon => exact .word semicolon

theorem Definition.settled (d : Definition) (kind : Kind) : Settled [d.branch kind] := by
  rw [branch, d.branches_eq]
  exact ((d.function.body.settled.append [d.function.signature.branch]).append _).node _ _

theorem Service.settled (leading : Leading) (s : Service) :
    Settled (leading.branches ++ s.branches) := by
  have hfoot : Settled s.footBranches := by
    unfold footBranches
    cases s.semicolon with
    | none => exact .leaf _ _
    | some w => exact (Settled.word w).append [.leaf .closeBrace s.closing]
  exact ((hfoot.append _).append _).append _

theorem ModuleMember.settled (m : ModuleMember) : Settled [moduleGrammar.branch m] := by
  cases m with
  | declaration i =>
    have hbranch : i.branch = .node .importDeclaration (.name (i.name.flatMap (·.lexeme.text)))
        ((.word i.keyword :: (i.name.map .word ++ i.aliasBranches)) ++ [.word i.semicolon]) := by
      simp [Import.branch]
    rw [moduleGrammar_declaration, hbranch]
    exact ((Settled.word _).append _).node _ _
  | service leading s => exact (Service.settled leading s).node _ _
  | function d => exact d.settled _
  | other o =>
    refine (Settled.words fun hw => o.core_ne_nil ?_).node _ _
    rw [(List.append_eq_nil_iff.1 hw).2]
    rfl

/-- The nodes of items are the same in front of every gap. -/
theorem nodesAll_next (items : List (Item ModuleMember)) (before next next' : Text) :
    nodesAll before next (items.map moduleGrammar.itemBranch)
      = nodesAll before next' (items.map moduleGrammar.itemBranch) := by
  rcases List.eq_nil_or_concat items with rfl | ⟨init, item, rfl⟩
  · simp
  · have hitem : Settled [moduleGrammar.itemBranch item] := by
      cases item with
      | semicolon w => exact .word w
      | member m => exact m.settled
    rw [List.concat_eq_append, List.map_append]
    exact (hitem.append _).nodes_eq before next next'

theorem ModuleMember.segments_next (m : ModuleMember) (width : Nat) (ctx : Context)
    (before next next' : Text) :
    m.segments width ctx before next = m.segments width ctx before next' := by
  cases m with
  | service leading s =>
    have hnode : s.node leading before next = s.node leading before next' := by
      have hnodes := (ModuleMember.service leading s).settled.nodes_eq before next next'
      simpa [Service.node, nodes_node] using hnodes
    rw [segments, segments, hnode]
  | declaration i => rfl
  | function d => rfl
  | other o => rfl

theorem moduleGrammar_segments_next (items : List (Item ModuleMember)) (width : Nat) (ctx : Context)
    (before next next' : Text) :
    moduleGrammar.segments (ModuleMember.segments width ctx) before next items
      = moduleGrammar.segments (ModuleMember.segments width ctx) before next' items := by
  induction items generalizing before with
  | nil => rfl
  | cons item items ih =>
    cases item with
    | semicolon w => rw [Grammar.segments, Grammar.segments, ih]
    | member m =>
      rw [Grammar.segments, Grammar.segments, ih, m.segments_next width ctx before _ _]

/-! ## Members end in operators -/

open Cursor

/-- Whether the last of some words is an operator. -/
def EndsInOperator (ws : List Word) : Prop :=
  ∃ init w, ws = init ++ [w] ∧ w.lexeme.kind = .op

namespace EndsInOperator

theorem of_isOp {w : Word} {s : Text} (h : w.lexeme.isOp s = true) : EndsInOperator [w] :=
  ⟨[], w, rfl, Lexeme.kind_of_isOp h⟩

theorem append {bs : List Word} (h : EndsInOperator bs) (as : List Word) :
    EndsInOperator (as ++ bs) := by
  obtain ⟨init, w, rfl, hw⟩ := h
  exact ⟨as ++ init, w, by simp, hw⟩

theorem opensTypeBody_latest {ws : List Word} (h : EndsInOperator ws) (p : Option Lexeme) :
    opensTypeBody (latest p (lexemes ws)) = false := by
  obtain ⟨init, w, rfl, hw⟩ := h
  simp [opensTypeBody, Lexeme.isWord, hw]

end EndsInOperator

theorem Group.Valid.endsInOperator {b : Bracket} {g : Group} (h : g.Valid b) :
    EndsInOperator g.words :=
  ⟨g.opening :: g.inside, g.closing, rfl, (Lexeme.closes?_eq_some.1 h.closing).1⟩

theorem Body.Valid.endsInOperator {b : Body} (h : b.Valid) : EndsInOperator b.words := by
  cases b with
  | block g => exact Group.Valid.endsInOperator h
  | clause sign content semicolon =>
    exact (EndsInOperator.of_isOp h.2.2).append (sign :: content)
  | bare semicolon => exact .of_isOp h

theorem ModuleMember.endsInOperator {p : Option Lexeme} {m : ModuleMember} {rest : List Lexeme}
    (h : moduleGrammar.Valid p m rest) : EndsInOperator (moduleGrammar.branch m).words := by
  cases m with
  | declaration i =>
    have hi : i.Valid := h
    have hwords : i.words = (i.keyword :: (i.name ++ i.aliasWords)) ++ [i.semicolon] := by
      simp [Import.words]
    rw [moduleGrammar_declaration, Import.words_branch, hwords]
    exact (EndsInOperator.of_isOp hi.semicolon).append _
  | service leading s =>
    have hs : s.Valid rest := h.2
    have hfoot : EndsInOperator s.foot := by
      have hsemicolon := hs.semicolon
      unfold Service.foot
      split at hsemicolon
      · rename_i heq
        rw [heq]
        exact .of_isOp hs.closing
      · rename_i w heq
        rw [heq]
        exact (EndsInOperator.of_isOp hsemicolon).append [s.closing]
    have hwords : (moduleGrammar.branch (.service leading s)).words = leading.words ++ s.words := by
      simp
    rw [hwords]
    exact ((hfoot.append _).append _).append _
  | function d =>
    have hd : d.Valid moduleQualifiers .functionDefinition := h
    rw [moduleGrammar_function, Definition.words_branch, d.words_eq]
    exact ((hd.function.body.endsInOperator.append _).append _)
  | other o =>
    have hending := h.1.ending
    have hlast : EndsInOperator o.ending.words := by
      unfold Ending.Valid at hending
      split at hending
      · rename_i w heq
        rw [heq]
        exact .of_isOp hending
      · rename_i g s heq
        rw [heq]
        obtain ⟨hg, -, hs⟩ := hending
        cases s with
        | none => simpa [Ending.words] using hg.endsInOperator
        | some w => exact (EndsInOperator.of_isOp hs).append g.words
    rw [moduleGrammar_other, Other.words_branch]
    exact (hlast.append _).append _

/-- Members one after the other end in an operator. -/
theorem endsInOperator_words {items : List (Item ModuleMember)} {p : Option Lexeme}
    {rest : List Lexeme} (h : moduleGrammar.AllValid p items rest) (hne : items ≠ []) :
    EndsInOperator (moduleGrammar.words items) := by
  induction items generalizing p with
  | nil => exact absurd rfl hne
  | cons item items ih =>
    rcases List.eq_nil_or_concat items with rfl | ⟨init, last, rfl⟩
    · cases item with
      | semicolon w => simpa using EndsInOperator.of_isOp h.1
      | member m => simpa using ModuleMember.endsInOperator h.2.1
    · cases item with
      | semicolon w =>
        rw [Grammar.words_semicolon]
        exact (ih h.2 (by simp)).append [w]
      | member m =>
        rw [Grammar.words_member]
        exact (ih h.2.2 (by simp)).append _

theorem opensTypeBody_latest {items : List (Item ModuleMember)} {p : Option Lexeme}
    {rest : List Lexeme} (h : moduleGrammar.AllValid p items rest) (hp : opensTypeBody p = false) :
    opensTypeBody (latest p (lexemes (moduleGrammar.words items))) = false := by
  cases items with
  | nil => exact hp
  | cons item items => exact (endsInOperator_words h (by simp)).opensTypeBody_latest p

/-- Members behind others that are complete. -/
theorem allValid_append_of_complete {as bs : List (Item ModuleMember)}
    (ha : moduleGrammar.AllValid none as []) (hb : moduleGrammar.AllValid none bs [])
    (hs : startsOp [';'] (lexemes (moduleGrammar.words bs)) = false) :
    moduleGrammar.AllValid none (as ++ bs) [] := by
  rw [Grammar.allValid_append, List.append_nil]
  refine ⟨ha.congr moduleGrammar_local rfl hs.symm, hb.congr moduleGrammar_local ?_ rfl⟩
  exact (opensTypeBody_latest ha rfl).symm

end Phrase

/-! ## What can be appended -/

open Phrase

/-- What a text is made of that can be appended: it begins on a new line with a member, and its
members are neither imports nor services. -/
structure Appendix (b : Text) (items : List (Item ModuleMember)) (tail : Text) : Prop where
  text : b = spell (moduleGrammar.words items) ++ tail
  valid : moduleGrammar.AllValid none items []
  legible : Legible (moduleGrammar.words items) tail
  trailing : Trailing tail
  first : ∃ w ∈ (moduleGrammar.words items).head?, w.gap.head? = some '\n'
    ∧ w.lexeme.isOp [';'] = false
  kinds : ∀ kind ∈ kinds (items.map moduleGrammar.itemBranch),
    kind ≠ .importDeclaration ∧ kind ≠ .serviceDeclaration

/-- A text can be appended if its first token is an identifier behind a newline. -/
theorem Appendix.of_parse {b : Text} {tree : Tree} (h : Tree.parse b = .ok tree)
    (hk : ∀ n ∈ tree.root.children, n.kind ≠ .importDeclaration ∧ n.kind ≠ .serviceDeclaration)
    {t : Token} {ts : List Token} (hs : b.scan = .ok (t :: ts)) (ht : t.kind = .ident)
    (hn : (b.take t.start).head? = some '\n') : ∃ items tail, Appendix b items tail := by
  obtain ⟨items, tail, hb, hv, hl, htail, rfl⟩ := Tree.exists_of_parse h
  refine ⟨items, tail, hb, hv, hl, htail, ?_, ?_⟩
  · have hscan : b.scan = .ok (tokensFrom 0 (moduleGrammar.words items)) := by
      rw [hb]
      exact scanFrom_spell hl htail 0
    rw [hs] at hscan
    cases hw : moduleGrammar.words items with
    | nil =>
      rw [hw] at hscan
      cases hscan
    | cons w ws =>
      rw [hw, tokensFrom, Nat.zero_add] at hscan
      cases hscan
      rw [hb, hw, spell_cons, List.append_assoc, List.append_assoc] at hn
      refine ⟨w, rfl, by simpa using hn, ?_⟩
      have hident : w.lexeme.kind = .ident := ht
      simp [Lexeme.isOp, hident]
  · intro kind hkind
    rw [← map_kind_nodesAll [] tail] at hkind
    obtain ⟨n, hmem, rfl⟩ := List.mem_map.1 hkind
    exact hk n hmem

/-- A newline separates the words of a source from what is appended. -/
theorem Lexer.Legible.append_newline {ws : List Word} {tail g : Text} (h : Legible ws tail)
    (hg : Gap (tail ++ '\n' :: g)) (t : Text) : Legible ws (tail ++ '\n' :: g ++ t) := by
  cases tail with
  | nil => exact h.of_space (by decide)
  | cons c tail =>
    obtain ⟨-, he, hp⟩ := hg.head_not_ident
    refine h.of_ahead ?_
    simp [ahead, he, hp]

theorem kinds_padAll (g : Text) (bs : List Branch) : kinds (padAll g bs) = kinds bs := by
  induction bs with
  | nil => rw [padAll]
  | cons b bs ih =>
    rw [padAll]
    split_ifs
    · cases b <;> simp [kinds, ih]
    · cases b <;> simp [kinds, padded]

namespace Appendix

variable {b btail tail : Text} {bs items : List (Item ModuleMember)} (h : Appendix b bs btail)
  (hv : moduleGrammar.AllValid none items []) (hl : Legible (moduleGrammar.words items) tail)
  (ht : Trailing tail)

include h

theorem words_ne_nil : moduleGrammar.words bs ≠ [] := by
  obtain ⟨w, hw, -⟩ := h.first
  rintro hnil
  rw [hnil] at hw
  cases hw

theorem text_pad (tail : Text) :
    spell (pad tail (moduleGrammar.words bs)) ++ btail = tail ++ b := by
  rw [spell_pad h.words_ne_nil, List.append_assoc, ← h.text]

theorem startsOp_eq_false : startsOp [';'] (lexemes (moduleGrammar.words bs)) = false := by
  obtain ⟨w, hw, -, hop⟩ := h.first
  obtain ⟨ws, hws⟩ := List.head?_eq_some_iff.1 hw
  rw [hws]
  exact hop

include hv in
theorem valid_append : moduleGrammar.AllValid none (items ++ bs) [] :=
  allValid_append_of_complete hv h.valid h.startsOp_eq_false

include hl ht in
theorem legible_pad :
    Legible (moduleGrammar.words items ++ pad tail (moduleGrammar.words bs)) btail := by
  obtain ⟨w, hw, hgap, -⟩ := h.first
  obtain ⟨ws, hws⟩ := List.head?_eq_some_iff.1 hw
  obtain ⟨g, hg⟩ := List.head?_eq_some_iff.1 hgap
  have hlegible := h.legible
  rw [hws] at hlegible ⊢
  have hsep : Gap (tail ++ '\n' :: g) := by
    refine ht.append_newline ?_
    rw [← hg]
    exact hlegible.1
  rw [legible_append]
  refine ⟨?_, hlegible.pad ?_⟩
  · have := hl.append_newline hsep (w.lexeme.text ++ spell ws ++ btail)
    simpa [pad, hg] using this
  · rintro _ ⟨⟩ _
    rwa [hg]

include hv hl ht in
/-- The tree of a source with an appendix. -/
theorem parse_append {source : Text} (hs : source = spell (moduleGrammar.words items) ++ tail) :
    Tree.parse (source ++ b) = .ok (Tree.ofBranches (source ++ b) btail
      (items.map moduleGrammar.itemBranch ++ padAll tail (bs.map moduleGrammar.itemBranch))) := by
  refine Tree.parse_of_padded (h.valid_append hv) (h.legible_pad hl ht) h.trailing ?_
  rw [spell_append, List.append_assoc, h.text_pad, hs, List.append_assoc]

include hv in
theorem marks_append {source : Text}
    (hs : source = spell (moduleGrammar.words items) ++ (tail ++ b)) (width : Nat) (ctx : Context) :
    Marks (fun s => Patch.serviceSites source width s (ctx.push s)) .serviceDeclaration
      (items.map moduleGrammar.itemBranch ++ padAll tail (bs.map moduleGrammar.itemBranch)) [] btail
      (moduleGrammar.segments (ModuleMember.segments width ctx) [] tail items
        ++ [.kept (spell (pad tail (moduleGrammar.words bs)))]) := by
  have hvalid := (Grammar.allValid_append.1 (h.valid_append hv)).1
  have hwords : wordsAll (padAll tail (bs.map moduleGrammar.itemBranch))
      = pad tail (moduleGrammar.words bs) := by
    rw [wordsAll_padAll]
    rfl
  have hitems : Marks (fun s => Patch.serviceSites source width s (ctx.push s)) .serviceDeclaration
      (items.map moduleGrammar.itemBranch) []
      (gapBefore btail (wordsAll (padAll tail (bs.map moduleGrammar.itemBranch))))
      (moduleGrammar.segments (ModuleMember.segments width ctx) [] tail items) := by
    rw [moduleGrammar_segments_next items width ctx [] tail]
    exact Grammar.marks ModuleMember.marks [] _ (tail ++ b) hvalid hs
  refine hitems.append (.kept ?_ hwords) rfl rfl
  rw [kinds_padAll]
  intro hk
  exact (h.kinds _ hk).2 rfl

/-- The root of a source agrees with that of the source with an appendix. -/
theorem agree_root (items : List (Item ModuleMember)) (tail source source' : Text) :
    (Context.root (Tree.ofBranches source tail (items.map moduleGrammar.itemBranch)).root).Agree
      (Context.root (Tree.ofBranches source' btail (items.map moduleGrammar.itemBranch
        ++ padAll tail (bs.map moduleGrammar.itemBranch))).root) := by
  refine ⟨?_, rfl, rfl⟩
  have hroot : ∀ t : Tree, t.root.kind = .modulePart →
      (Context.root t.root).module? = some t.root := by
    intro t ht
    simp [Context.module?, Context.nearest?, Context.chain, Context.root, ht]
  have hkinds : Kind.importDeclaration ∉
      Branch.kinds (padAll tail (bs.map moduleGrammar.itemBranch)) := by
    rw [kinds_padAll]
    intro hk
    exact (h.kinds _ hk).1 rfl
  unfold Context.importedModules
  rw [hroot _ rfl, hroot _ rfl]
  simp only [Node.childrenOf, Tree.ofBranches, nodesAll_append, List.filter_append,
    filter_nodesAll hkinds, List.append_nil]
  rw [nodesAll_next items [] tail]

include hv in
theorem applied_eq {source : Text} (hs : source = spell (moduleGrammar.words items) ++ (tail ++ b))
    {g : Generator} {width : Int} (hw : 0 < width) :
    let n := (Tree.ofBranches source btail (items.map moduleGrammar.itemBranch
      ++ padAll tail (bs.map moduleGrammar.itemBranch))).root
    Patch.applied ⟨source, n⟩ g width = (do
      let new ← patchedAll g (moduleGrammar.segments
        (ModuleMember.segments width.toNat (Context.root n)) [] tail items)
      let imports ← g.imports (Context.root n)
      return imports ++ (new ++ (tail ++ b))) := by
  intro n
  have hmarks := h.marks_append hv hs width.toNat (Context.root n)
  have htext : textAll (moduleGrammar.segments
      (ModuleMember.segments width.toNat (Context.root n)) [] tail items
      ++ [.kept (spell (pad tail (moduleGrammar.words bs)))] ++ [.kept btail]) = source := by
    rw [textAll_append, hmarks.text, wordsAll_append, wordsAll_padAll, spell_append, hs]
    simpa [Segment.text, Grammar.words] using h.text_pad tail
  have hsites : Patch.sites ⟨source, n⟩ width.toNat = .ok (sitesAll 0 (moduleGrammar.segments
      (ModuleMember.segments width.toNat (Context.root n)) [] tail items
      ++ [.kept (spell (pad tail (moduleGrammar.words bs)))] ++ [.kept btail])) := by
    rw [sitesAll_append]
    simp only [sitesAll, Segment.sites, List.append_nil]
    exact hmarks.flatten rfl
  have hfits := (fitAll_append _ _ [.kept btail]).2 ⟨hmarks.fits, trivial, trivial⟩
  rw [BalMediation.applied_eq hw htext.symm hfits hsites, patchedAll_kept, patchedAll_kept]
  cases patchedAll g (moduleGrammar.segments
    (ModuleMember.segments width.toNat (Context.root n)) [] tail items) with
  | error e => rfl
  | ok new => simp [bind, Except.bind, Except.map, h.text_pad]

end Appendix

/-- What comes of a source with an appendix is what comes of the source, with the appendix. -/
theorem Patch.applied_append {source b btail : Text} {tree : Tree}
    (h : Tree.parse source = .ok tree) {bs : List (Item ModuleMember)} (hb : Appendix b bs btail)
    {g : Generator} (hg : g.Steady) {width : Int} (hw : 0 < width) :
    ∃ tree', Tree.parse (source ++ b) = .ok tree'
      ∧ Patch.applied tree' g width = (Patch.applied tree g width).map (· ++ b) := by
  obtain ⟨items, tail, hs, hv, hl, ht, rfl⟩ := Tree.exists_of_parse h
  refine ⟨_, hb.parse_append hv hl ht hs, ?_⟩
  have hagree := hb.agree_root items tail source (source ++ b)
  have hsegments := Grammar.agree_segments (G := moduleGrammar)
    (fun m => ModuleMember.agree_segments hagree m width.toNat) items [] tail
  have hs' : source ++ b = spell (moduleGrammar.words items) ++ (tail ++ b) := by
    rw [hs, List.append_assoc]
  have hnew := hb.applied_eq hv hs' (g := g) hw
  have hown := applied_of_items hv hs (g := g) hw
  simp only [moduleSegments, patchedAll_kept, patchedAll_of_agree hg hsegments,
    hg.imports hagree] at hown
  refine hnew.trans (Eq.trans ?_ (congrArg (Except.map (· ++ b)) hown).symm)
  cases patchedAll g (moduleGrammar.segments _ [] tail items) with
  | error e => rfl
  | ok new =>
    cases g.imports _ with
    | error e => rfl
    | ok imports => simp [bind, Except.bind, Except.map, pure, Except.pure]

/-! ## The boilerplate -/

theorem Snippet.exists_appendix : ∃ items tail, Appendix Snippet.boilerplate items tail := by
  have hparse : ((Tree.parse boilerplate).toOption.any fun tree => tree.root.children.all fun n =>
      n.kind ≠ .importDeclaration ∧ n.kind ≠ .serviceDeclaration) = true := by
    simp only [boilerplate, lines, List.flatMap_cons, List.flatMap_nil]
    repeat rw [String.toList_ofList]
    decide +kernel
  have hscan : (boilerplate.scan.toOption.any fun ts => ts.head?.any fun t =>
      t.kind = .ident ∧ t.start = 1) = true := by
    simp only [boilerplate, lines, List.flatMap_cons, List.flatMap_nil]
    repeat rw [String.toList_ofList]
    decide +kernel
  obtain ⟨tree, htree, hkinds⟩ := exists_of_any hparse
  obtain ⟨ts, hts, hfirst⟩ := exists_of_any hscan
  cases ts with
  | nil => cases hfirst
  | cons t ts =>
    simp only [List.head?_cons, Option.any_some, decide_eq_true_eq] at hfirst
    refine Appendix.of_parse htree (by simpa using hkinds) hts hfirst.1 ?_
    rw [hfirst.2]
    rfl

namespace Mediation

theorem appended_eq (d : Document) (b : Text) : appended d b = .ok ⟨d.name, d.text ++ b⟩ := by
  have hwoven := (Edit.Woven.keep 0 d.text).append (Edit.Woven.inserted (0 + d.text.length) b)
  have happly : Edit.apply d.text [Edit.insert d.text.length b] = .ok (d.text ++ b) := by
    simpa using hwoven.apply
  simp [appended, Document.apply, Patch.append, happly, Except.map, Except.mapError]

theorem patch_eq {d : Document} {b : Text} {tree : Tree} (h : Tree.parse (d.text ++ b) = .ok tree)
    (g : Generator) (width : Int) :
    Mediation.patch d b g width = (Patch.applied tree g width).map (⟨d.name, ·⟩) := by
  have hsource : tree.source = d.text ++ b := Tree.source_of_parse h
  unfold Mediation.patch batch Patch.applied
  rw [appended_eq]
  simp only [bind, Except.bind, pure, Except.pure, h, Except.mapError, hsource]
  cases Patch.edits tree g width with
  | error e => rfl
  | ok es =>
    simp only [Document.apply]
    cases Edit.apply (d.text ++ b) es <;> rfl

/-- The edits of the second pass can always be applied to what the first pass leaves. -/
theorem patch_of_batch {d first : Document} {b : Text} {g : Generator} {width : Int}
    {es : List Edit} (h : batch d b g width = .ok (first, es)) :
    ∃ t, Edit.apply (d.text ++ b) es = .ok t ∧ Mediation.patch d b g width = .ok ⟨d.name, t⟩ := by
  have hbatch := h
  unfold batch at h
  rw [appended_eq] at h
  obtain ⟨_, hfirst, h⟩ := bind_ok h
  cases hfirst
  obtain ⟨tree, htree, h⟩ := bind_ok h
  obtain ⟨es', hes, h⟩ := bind_ok h
  cases h
  obtain ⟨n, rfl, -, segs, hs, hf, hsites⟩ := exists_segments (mapError_ok htree) width.toNat
  have hs : d.text ++ b = [] ++ Segment.textAll segs ++ [] := by simpa using hs
  obtain ⟨imports, new, -, -, hwoven⟩ := woven_edits hs hf hsites hes
  refine ⟨_, hwoven.apply, ?_⟩
  rw [Mediation.patch, hbatch]
  simp only [bind, Except.bind, Document.apply, hwoven.apply, Except.map, Except.mapError]

theorem patch_of_batch_error {d : Document} {b : Text} {g : Generator} {width : Int} {e : Error}
    (h : batch d b g width = .error e) : Mediation.patch d b g width = .error e := by
  rw [Mediation.patch, h]
  rfl

theorem name_of_patch {d d' : Document} {b : Text} {g : Generator} {width : Int}
    (h : Mediation.patch d b g width = .ok d') : d'.name = d.name := by
  obtain ⟨⟨first, es⟩, hbatch, -⟩ := bind_ok h
  obtain ⟨t, -, hpatch⟩ := patch_of_batch hbatch
  rw [hpatch] at h
  cases h
  rfl

/-- Mediation of a document is that of its own text, with the boilerplate behind it: both fail with
the same error, and they fail exactly if a margin is too wide. -/
theorem patch_eq_append {d : Document} {tree : Tree} (h : Tree.parse d.text = .ok tree)
    {hooks : Hooks} (hg : 0 < hooks.indentWidth) {width : Int} (hw : 0 < width)
    (fs : FileSystem) (here : List Text) :
    let g := Generator.templated (SnippetLocation.bundled.read fs here) hooks
    ∃ requests, Patch.requests tree width.toNat = .ok requests
      ∧ (Mediation.patch d Snippet.boilerplate g width = do
        let es ← Patch.edits tree g width
        let text ← (Edit.apply d.text es).mapError .edit
        return ⟨d.name, text ++ Snippet.boilerplate⟩)
      ∧ ((∃ d', Mediation.patch d Snippet.boilerplate g width = .ok d')
        ↔ ∀ r ∈ requests, r.margin hooks.indentWidth ≤ Fragment.maxMargin) := by
  intro g
  obtain ⟨items, tail, hb⟩ := Snippet.exists_appendix
  obtain ⟨tree', htree', happlied⟩ :=
    Patch.applied_append h hb (Generator.steady_templated _ hooks) hw
  obtain ⟨requests, hrequests, hanswers⟩ := Patch.exists_applied_iff h hw
  have hpatch := patch_eq htree' g width
  rw [happlied] at hpatch
  refine ⟨requests, hrequests, ?_, ?_⟩
  · have hsource : tree.source = d.text := Tree.source_of_parse h
    rw [hpatch, Patch.applied, hsource]
    cases Patch.edits tree g width with
    | error e => rfl
    | ok es =>
      simp only [bind, Except.bind]
      cases Edit.apply d.text es <;> rfl
  · have hok : (∃ d', Mediation.patch d Snippet.boilerplate g width = .ok d')
        ↔ ∃ t, Patch.applied tree g width = .ok t := by
      rw [hpatch]
      cases Patch.applied tree g width <;> simp [Except.map]
    rw [hok, hanswers g]
    exact forall₂_congr fun r _ => Generator.answer_ok_iff (Snippet.read_bundled fs here) hg r

theorem patch_eq_append_resource :
    let d : Document := ⟨"proxy_service.bal".toList,
      "service / on x \x7b resource function get a() \x7b \x7d \x7d".toList⟩
    let g := Generator.templated (SnippetLocation.bundled.read ⟨[]⟩ []) ⟨["f".toList], [], none, 4⟩
    ∃ tree es text, Tree.parse d.text = .ok tree ∧ Patch.edits tree g 4 = .ok es
      ∧ Edit.apply d.text es = .ok text
      ∧ Mediation.patch d Snippet.boilerplate g 4
        = .ok ⟨d.name, text ++ Snippet.boilerplate⟩ := by
  intro d g
  have hrun : ((Tree.parse d.text).toOption.any fun tree =>
      (Patch.requests tree 4).toOption.any fun rs =>
        rs.all fun r => r.margin 4 ≤ Fragment.maxMargin) = true := by
    simp only [d]
    rw [String.toList_ofList]
    decide +kernel
  obtain ⟨tree, hparse, hrun⟩ := exists_of_any hrun
  obtain ⟨rs, hrs, hfit⟩ := exists_of_any hrun
  have hwidth : 0 < (Hooks.mk ["f".toList] [] none 4).indentWidth := by decide
  obtain ⟨rs', hrs', heq, hok⟩ :=
    patch_eq_append hparse hwidth (show (0 : Int) < 4 by decide) ⟨[]⟩ []
  obtain rfl : rs = rs' := Except.ok.inj (hrs.symm.trans hrs')
  obtain ⟨d', hd'⟩ := hok.2 (by simpa using hfit)
  obtain ⟨es, hes, hd⟩ := bind_ok (heq.symm.trans hd')
  obtain ⟨text, htext, hd⟩ := bind_ok hd
  cases hd
  exact ⟨tree, es, text, hparse, hes, mapError_ok htext, hd'⟩

/-- A margin that no text can have ends the mediation of a document that has a tree. -/
theorem patch_wide_margin :
    let d : Document := ⟨"proxy_service.bal".toList,
      "service / on x \x7b resource function get a() \x7b \x7d \x7d".toList⟩
    let hooks : Hooks :=
      ⟨["fooInMediate".toList], ["fooOutMediate".toList], none, 9223372036854775808⟩
    (Tree.parse d.text).toOption.isSome = true ∧ 0 < hooks.indentWidth
      ∧ Mediation.patch d Snippet.boilerplate
          (Generator.templated (SnippetLocation.bundled.read ⟨[]⟩ []) hooks) 9223372036854775808
        = .error .marginUncountable := by
  intro d hooks
  simp only [d, hooks, Snippet.boilerplate, Snippet.lines, List.flatMap_cons, List.flatMap_nil]
  repeat rw [String.toList_ofList]
  decide +kernel

end Mediation

end BalMediation
