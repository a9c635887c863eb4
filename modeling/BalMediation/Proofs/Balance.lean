import BalMediation.Proofs.Gluing
import BalMediation.Proofs.WellFormed

/-!
# Balance

Most readers pass a bracket only together with the one that closes it. Those of an import, of what
stands between `service` and `on`, of a listener and of the path of a resource do not: the first two
look at no bracket, a listener may hold `{|`, and a path may hold any bracket that closes.

So the brackets of a source that has a tree match exactly if those in these parts do, with the
braces of services and bodies around them (`nested_iff_of_parse`). They need not
(`exists_parse_not_nested`).
-/

namespace BalMediation

open Lexer Branch Cursor

/-! ## Brackets on a stack -/

/-- The brackets that are open behind some lexemes, innermost first, if `opened` are those in front.
There are none if one is closed that is not the innermost. -/
def pending (opened : List Bracket) : List Lexeme → Option (List Bracket)
  | [] => some opened
  | l :: ls =>
    match l.opens?, l.closes? with
    | some b, _ => pending (b :: opened) ls
    | none, none => pending opened ls
    | none, some b =>
      match opened with
      | [] => none
      | b' :: outer => if b = b' then pending outer ls else none

section Pending

variable {opened : List Bracket} {l : Lexeme} {ls : List Lexeme} {b : Bracket}

theorem pending_opens (h : l.opens? = some b) :
    pending opened (l :: ls) = pending (b :: opened) ls := by
  simp only [pending, h]

theorem pending_plain (ho : l.opens? = none) (hc : l.closes? = none) :
    pending opened (l :: ls) = pending opened ls := by
  simp only [pending, ho, hc]

theorem pending_closes (h : l.closes? = some b) :
    pending (b :: opened) (l :: ls) = pending opened ls := by
  simp only [pending, Lexeme.opens?_of_closes? h, h, if_true]

theorem pending_append (as bs : List Lexeme) :
    pending opened (as ++ bs) = (pending opened as).bind (pending · bs) := by
  induction as generalizing opened with
  | nil => rfl
  | cons a as ih =>
    rw [List.cons_append, pending, pending]
    split
    · exact ih
    · exact ih
    · split
      · rfl
      · split_ifs
        · exact ih
        · rfl

/-- Nested lexemes leave open what was open. -/
theorem Nested.pending_eq (h : Nested ls) : pending opened ls = some opened := by
  induction h generalizing opened with
  | nil => rfl
  | plain ho hc _ ih => rw [pending_plain ho hc, ih]
  | group ho _ hc _ ihi ih =>
    rw [pending_opens ho, pending_append, ihi, Option.bind_some, pending_closes hc, ih]

theorem exists_of_pending (h : pending opened ls = some []) :
    ∃ ns rest, ls = ns ++ rest ∧ Closes opened ns ∧ Nested rest := by
  induction ls generalizing opened with
  | nil =>
    cases h
    exact ⟨[], [], rfl, .nil, .nil⟩
  | cons l ls ih =>
    cases ho : l.opens? with
    | some b =>
      rw [pending_opens ho] at h
      obtain ⟨ns, rest, rfl, hns, hrest⟩ := ih h
      rcases hns with _ | ⟨hi, hc, hns⟩
      -- the bracket and what closes it go in front of what closes the next one out
      rcases hns with _ | ⟨hi', hc', hns⟩
      · refine ⟨[], _, rfl, .nil, ?_⟩
        simpa using Nested.group ho hi hc hrest
      · refine ⟨l :: _, rest, rfl, ?_, hrest⟩
        simpa using Closes.cons (Nested.group ho hi hc hi') hc' hns
    | none =>
      cases hc : l.closes? with
      | none =>
        rw [pending_plain ho hc] at h
        obtain ⟨ns, rest, rfl, hns, hrest⟩ := ih h
        rcases hns with _ | ⟨hi, hc', hns⟩
        · exact ⟨[], _, rfl, .nil, .plain ho hc hrest⟩
        · exact ⟨l :: _, rest, rfl, .cons (.plain ho hc hi) hc' hns, hrest⟩
      | some b =>
        cases opened with
        | nil => simp [pending, ho, hc] at h
        | cons b' outer =>
          simp only [pending, ho, hc] at h
          split_ifs at h with hb
          subst hb
          obtain ⟨ns, rest, rfl, hns, hrest⟩ := ih h
          exact ⟨l :: ns, rest, rfl, .cons .nil hc hns, hrest⟩

theorem nested_iff_pending : Nested ls ↔ pending [] ls = some [] := by
  refine ⟨Nested.pending_eq, fun h => ?_⟩
  obtain ⟨ns, rest, rfl, hns, hrest⟩ := exists_of_pending h
  cases hns
  exact hrest

end Pending

instance (ls : List Lexeme) : Decidable (Nested ls) :=
  decidable_of_iff _ nested_iff_pending.symm

/-! ## Runs with the same brackets -/

/-- Whether two runs of lexemes open and close the same brackets, whatever is open before them. -/
def SameBrackets (as bs : List Lexeme) : Prop :=
  ∀ opened, pending opened as = pending opened bs

namespace SameBrackets

variable {as as' bs bs' : List Lexeme}

theorem refl (as : List Lexeme) : SameBrackets as as :=
  fun _ => rfl

theorem of_nested (ha : Nested as) (hb : Nested bs) : SameBrackets as bs :=
  fun _ => ha.pending_eq.trans hb.pending_eq.symm

theorem append (h : SameBrackets as bs) (h' : SameBrackets as' bs') :
    SameBrackets (as ++ as') (bs ++ bs') := by
  intro opened
  rw [pending_append, pending_append, h]
  congr 1
  funext s
  exact h' s

theorem nested_iff (h : SameBrackets as bs) : Nested as ↔ Nested bs := by
  rw [nested_iff_pending, nested_iff_pending, h]

end SameBrackets

/-! ## Words in nodes of some kinds -/

namespace Branch

variable {ks : List Kind}

mutual

/-- The words of a branch in nodes of the given kinds. -/
def wordsIn (ks : List Kind) : Branch → List Word
  | word _ => []
  | node kind _ bs => if kind ∈ ks then wordsAll bs else wordsInAll ks bs

/-- The words of branches in nodes of the given kinds. -/
def wordsInAll (ks : List Kind) : List Branch → List Word
  | [] => []
  | b :: bs => wordsIn ks b ++ wordsInAll ks bs

end

@[simp] theorem wordsIn_word (w : Word) : wordsIn ks (word w) = [] := by rw [wordsIn]

@[simp] theorem wordsIn_node (kind : Kind) (label : Label) (bs : List Branch) :
    wordsIn ks (node kind label bs) = if kind ∈ ks then wordsAll bs else wordsInAll ks bs := by
  rw [wordsIn]

@[simp] theorem wordsInAll_nil : wordsInAll ks [] = [] := by rw [wordsInAll]

@[simp] theorem wordsInAll_cons (b : Branch) (bs : List Branch) :
    wordsInAll ks (b :: bs) = wordsIn ks b ++ wordsInAll ks bs := by rw [wordsInAll]

@[simp] theorem wordsInAll_append (as bs : List Branch) :
    wordsInAll ks (as ++ bs) = wordsInAll ks as ++ wordsInAll ks bs := by
  induction as with
  | nil => simp
  | cons a as ih => simp [ih]

theorem wordsInAll_eq_nil {bs : List Branch} (h : ∀ b ∈ bs, wordsIn ks b = []) :
    wordsInAll ks bs = [] := by
  induction bs with
  | nil => simp
  | cons b bs ih =>
    rw [wordsInAll_cons, h b List.mem_cons_self, List.nil_append]
    exact ih fun c hc => h c (List.mem_cons_of_mem _ hc)

@[simp] theorem wordsInAll_words (ws : List Word) : wordsInAll ks (ws.map word) = [] :=
  wordsInAll_eq_nil fun b hb => by
    obtain ⟨w, -, rfl⟩ := List.mem_map.1 hb
    exact wordsIn_word w

@[simp] theorem wordsIn_span (kind : Kind) (ws : List Word) :
    wordsIn ks (span kind ws) = if kind ∈ ks then ws else [] := by
  simp [span]

@[simp] theorem wordsIn_leaf (kind : Kind) (w : Word) :
    wordsIn ks (leaf kind w) = if kind ∈ ks then [w] else [] := by
  simp [leaf]

/-- Whether a token lies in a node of one of the given kinds, or below one. -/
def housed (ks : List Kind) (ns : List Node) (t : Token) : Bool :=
  (Node.walkAll ns).any fun n => ks.contains n.kind && t.liesIn n

theorem housed_append (ks : List Kind) (as bs : List Node) (t : Token) :
    housed ks (as ++ bs) t = (housed ks as t || housed ks bs t) := by
  rw [housed, Node.walkAll_append, List.any_append]
  rfl

/-- A token in front of branches or behind them is in none of their nodes. -/
theorem not_housed {before next : Text} {bs : List Branch} {t : Token} (hlt : t.start < t.stop)
    (ht : t.stop ≤ before.length ∨ before.length + (spell (wordsAll bs)).length ≤ t.start) :
    housed ks (nodesAll before next bs) t = false := by
  rw [housed, List.any_eq_false]
  intro n hn
  simp [not_liesIn_of_mem_walkAll hn hlt ht]

mutual

theorem filter_housed : ∀ (b : Branch) (before next : Text), (∀ w ∈ b.words, w.lexeme.text ≠ []) →
    ((tokensFrom before.length b.words).filter (housed ks (nodes before next b))).map (·.toLexeme)
      = lexemes (wordsIn ks b)
  | .word w, before, next, hws => by simp [tokensFrom, housed, Node.walkAll]
  | .node kind label bs, before, next, hws => by
    rw [words_node] at hws ⊢
    rw [wordsIn_node, nodes_node]
    have hnode : housed ks [nodeOver before next kind label (wordsAll bs) (nodesAll before next bs)]
        = fun t => (ks.contains kind && t.liesIn (nodeOver before next kind label (wordsAll bs)
          (nodesAll before next bs))) || housed ks (nodesAll before next bs) t := by
      funext t
      simp [housed, Node.walkAll, Node.walk, nodeOver]
    rw [hnode]
    split_ifs with hk
    · have hall : ∀ t ∈ tokensFrom before.length (wordsAll bs), t.liesIn (nodeOver before next kind
          label (wordsAll bs) (nodesAll before next bs)) = true := by
        intro t ht
        have hb := bounds_of_mem_tokensFrom ht
        obtain ⟨w, ws, hw⟩ : ∃ w ws, wordsAll bs = w :: ws := by
          refine List.exists_cons_of_ne_nil fun hnil => ?_
          rw [hnil] at ht
          cases ht
        rw [hw] at hb
        simpa [Token.liesIn, nodeOver, hw] using hb
      rw [List.filter_eq_self.2 fun t ht => ?_, Tree.tokensFrom_toLexeme]
      simp [hk, hall t ht]
    · simpa [hk] using filter_housedAll bs before next hws

/-- The tokens in nodes of the given kinds are those of the words in such nodes. -/
theorem filter_housedAll : ∀ (bs : List Branch) (before next : Text),
    (∀ w ∈ wordsAll bs, w.lexeme.text ≠ []) →
    ((tokensFrom before.length (wordsAll bs)).filter
        (housed ks (nodesAll before next bs))).map (·.toLexeme) = lexemes (wordsInAll ks bs)
  | [], before, next, hws => by simp [tokensFrom]
  | b :: bs, before, next, hws => by
    have hb : ∀ w ∈ b.words, w.lexeme.text ≠ [] := fun w hw => hws w (by simp [hw])
    have hbs : ∀ w ∈ wordsAll bs, w.lexeme.text ≠ [] := fun w hw => hws w (by simp [hw])
    have hfront : (tokensFrom before.length b.words).filter
          (housed ks (nodesAll before next (b :: bs)))
        = (tokensFrom before.length b.words).filter
          (housed ks (nodes before (gapBefore next (wordsAll bs)) b)) := by
      refine List.filter_congr fun t ht => ?_
      have hbound := bounds_of_mem_tokensFrom ht
      rw [nodesAll_cons, housed_append, not_housed (start_lt_stop hb ht) (.inl ?_), Bool.or_false]
      simpa using hbound.2
    have hback : (tokensFrom (before.length + (spell b.words).length) (wordsAll bs)).filter
          (housed ks (nodesAll before next (b :: bs)))
        = (tokensFrom (before.length + (spell b.words).length) (wordsAll bs)).filter
          (housed ks (nodesAll (before ++ spell b.words) next bs)) := by
      refine List.filter_congr fun t ht => ?_
      have hbound := bounds_of_mem_tokensFrom ht
      have hnot : housed ks (nodesAll before (gapBefore next (wordsAll bs)) [b]) t = false := by
        refine not_housed (start_lt_stop hbs ht) (.inr ?_)
        simp only [wordsAll_cons, wordsAll_nil, List.append_nil]
        omega
      rw [nodesAll_cons, nodesAll_nil, List.append_nil, wordsAll_nil, gapBefore_nil] at hnot
      rw [nodesAll_cons, housed_append, hnot, Bool.false_or]
    have hrest := filter_housedAll bs (before ++ spell b.words) next hbs
    rw [List.length_append] at hrest
    rw [wordsAll_cons, tokensFrom_append, List.filter_append, hfront, hback, List.map_append,
      filter_housed b before _ hb, hrest, wordsInAll_cons, lexemes_append]

end

end Branch

/-! ## What the readers check -/

/-- The kinds of nodes in which brackets need not match, and the braces around such nodes. -/
def uncheckedKinds : List Kind :=
  [.importDeclaration, .typeDescriptor, .absoluteResourcePath, .expression, .resourcePath,
    .openBrace, .closeBrace]

@[simp] theorem mem_uncheckedKinds {kind : Kind} :
    kind ∈ uncheckedKinds ↔ kind = .importDeclaration ∨ kind = .typeDescriptor
      ∨ kind = .absoluteResourcePath ∨ kind = .expression ∨ kind = .resourcePath
      ∨ kind = .openBrace ∨ kind = .closeBrace := by
  simp [uncheckedKinds]

theorem nested_of_kind {ls : List Lexeme} (h : ∀ l ∈ ls, l.kind ≠ .op) : Nested ls := by
  induction ls with
  | nil => exact .nil
  | cons l ls ih =>
    have hl := plain_of_kind (h l List.mem_cons_self)
    exact .plain hl.1 hl.2 (ih fun l' hl' => h l' (List.mem_cons_of_mem _ hl'))

theorem nested_ident {l : Lexeme} (h : l.kind = .ident) : Nested [l] :=
  nested_of_kind (by simp [h])

theorem nested_word {l : Lexeme} {s : Text} (h : l.isWord s = true) : Nested [l] :=
  nested_ident (Lexeme.kind_of_isWord h)

theorem nested_op {l : Lexeme} {s : Text} (h : l.isOp s = true)
    (hs : ∀ b : Bracket, s ≠ b.opening ∧ s ≠ b.closing) : Nested [l] :=
  .plain (plain_of_isOp h hs).1 (plain_of_isOp h hs).2 .nil

theorem nested_semicolon {l : Lexeme} (h : l.isOp [';'] = true) : Nested [l] :=
  .plain (plain_of_semicolon h).1 (plain_of_semicolon h).2 .nil

namespace Phrase

theorem Group.Valid.nested {b : Bracket} {g : Group} (h : g.Valid b) :
    Nested (lexemes g.words) := by
  rw [words, lexemes_cons, lexemes_append]
  exact .group (Lexeme.opens?_of_isOp h.opening) h.inside h.closing .nil

theorem Attachment.Valid.nested {a : Attachment} {rest : List Lexeme} (h : a.Valid rest) :
    Nested (lexemes a.words) := by
  have hsign : Nested [a.sign.lexeme] := nested_op h.sign fun b => by cases b <;> decide
  have hqualified : Nested (lexemes a.qualified) := by
    rcases h.qualified with ⟨hq, -⟩ | ⟨colon, name, hq, hcolon, hname⟩
    · rw [hq]
      exact .nil
    · rw [hq]
      exact (nested_op hcolon fun b => by cases b <;> decide).append (nested_ident hname)
  have hrecord : Nested (lexemes a.record) := by
    rcases h.record with ⟨hr, -⟩ | ⟨g, hr, hg⟩
    · rw [hr]
      exact .nil
    · rw [hr]
      exact hg.nested
  simpa [words] using hsign.append ((nested_ident h.name).append (hqualified.append hrecord))

theorem Attachment.AllValid.nested {as : List Attachment} {rest : List Lexeme}
    (h : AllValid as rest) : Nested (lexemes (as.flatMap words)) := by
  induction as with
  | nil => exact .nil
  | cons a as ih =>
    rw [List.flatMap_cons, lexemes_append]
    exact h.1.nested.append (ih h.2)

theorem Attachment.wordsInAll_branch (as : List Attachment) :
    wordsInAll uncheckedKinds (as.map branch) = [] :=
  wordsInAll_eq_nil fun b hb => by
    obtain ⟨a, -, rfl⟩ := List.mem_map.1 hb
    simp [branch]

theorem Leading.Valid.nested {allowed : List Text} {h : Leading} {rest : List Lexeme}
    (hv : h.Valid allowed rest) : Nested (lexemes h.words) := by
  rw [words, lexemes_append]
  refine hv.annotations.nested.append (nested_of_kind fun l hl => ?_)
  obtain ⟨w, hw, rfl⟩ := List.mem_map.1 hl
  simp [(hv.qualifiers w hw).1]

theorem Leading.wordsInAll_branches (h : Leading) : wordsInAll uncheckedKinds h.branches = [] := by
  rw [branches, wordsInAll_append, Attachment.wordsInAll_branch, List.nil_append]
  refine wordsInAll_eq_nil fun b hb => ?_
  obtain ⟨w, -, rfl⟩ := List.mem_map.1 hb
  simp

/-- The rules that stop early but else let a bracket pass only with its partner. -/
theorem nested_of_typeRule {p : Option Lexeme} {ls : List Lexeme} (h : Passes typeRule p ls) :
    Nested ls :=
  nested_of_passes h fun _ _ => Step.stop_or_plain _ _

theorem nested_of_memberRule {p : Option Lexeme} {ls : List Lexeme} (h : Passes memberRule p ls) :
    Nested ls :=
  nested_of_passes h fun _ _ => Step.stop_or_plain _ _

theorem nested_of_clauseRule {p : Option Lexeme} {ls : List Lexeme} (h : Passes clauseRule p ls) :
    Nested ls :=
  nested_of_passes h fun _ _ => Step.stop_or_plain _ _

theorem Other.Valid.nested {allowed : List Text} {p : Option Lexeme} {o : Other}
    {rest : List Lexeme} (h : o.Valid allowed p rest) : Nested (lexemes o.words) := by
  have hending : Nested (lexemes o.ending.words) := by
    have he := h.ending
    cases hcase : o.ending with
    | semicolon w =>
      rw [hcase] at he
      exact nested_semicolon he
    | block g s =>
      rw [hcase] at he
      rw [Ending.words, lexemes_append]
      refine he.1.nested.append ?_
      have hs := he.2.2
      cases s with
      | none => exact .nil
      | some w => exact nested_semicolon hs
  rw [words, core, lexemes_append, lexemes_append]
  exact h.leading.nested.append ((nested_of_memberRule h.content).append hending)

theorem wordsInAll_parameterBranches (depth : Nat) (run ws : List Word) :
    wordsInAll uncheckedKinds (parameterBranches depth run ws) = [] := by
  have hrun : ∀ r : List Word,
      wordsInAll uncheckedKinds (if r.isEmpty then [] else [.span .parameter r]) = [] := by
    intro r
    split_ifs <;> simp
  induction ws generalizing depth run with
  | nil => exact hrun run
  | cons w ws ih =>
    rw [parameterBranches]
    split
    · rw [wordsInAll_append, hrun, wordsInAll_cons, wordsIn_word, ih]
      rfl
    · exact ih _ _

theorem Signature.Valid.sameBrackets {s : Signature} {rest : List Lexeme} (h : s.Valid rest) :
    SameBrackets (lexemes s.words) (lexemes (wordsIn uncheckedKinds s.branch)) := by
  have hparams : wordsInAll uncheckedKinds (paramsBranches s.params) = [] := by
    simp [paramsBranches, wordsInAll_parameterBranches]
  have hreturns := h.returns
  rw [branch, wordsIn_node, if_neg (by decide), wordsInAll_append, hparams, words, returnsWords,
    lexemes_append]
  cases hr : s.returns with
  | none => exact .of_nested (h.params.nested.append .nil) .nil
  | some r =>
    rw [hr] at hreturns
    have htype : Nested (lexemes r.type) := nested_of_typeRule hreturns.type
    have hwords : Nested (lexemes r.words) := by
      rw [Returns.words, lexemes_cons, lexemes_append]
      exact (nested_word hreturns.keyword).append (hreturns.annotations.nested.append htype)
    refine .of_nested (h.params.nested.append hwords) ?_
    simpa [Returns.branch, Attachment.wordsInAll_branch] using htype

theorem Body.Valid.nested {b : Body} (h : b.Valid) : Nested (lexemes b.words) := by
  cases b with
  | block g => exact Group.Valid.nested h
  | clause sign content semicolon =>
    rw [words, ← List.cons_append, lexemes_append]
    exact (nested_of_clauseRule h.2.1).append (nested_semicolon h.2.2)
  | bare semicolon => exact nested_semicolon h

theorem Body.Valid.sameBrackets {b : Body} (h : b.Valid) :
    SameBrackets (lexemes b.words) (lexemes (wordsInAll uncheckedKinds b.branches)) := by
  refine .of_nested h.nested ?_
  cases b with
  | block g =>
    have hempty : Group.Valid .brace ⟨g.opening, [], g.closing⟩ := ⟨h.opening, .nil, h.closing⟩
    simpa [branches, Group.words] using hempty.nested
  | clause sign content semicolon =>
    have hkind : clauseKind sign ∉ uncheckedKinds := by
      unfold clauseKind
      split <;> decide
    rw [branches, wordsInAll_cons, wordsInAll_nil, wordsIn_node, if_neg hkind, wordsInAll_words]
    exact .nil
  | bare semicolon => simpa [branches] using Nested.nil

theorem Definition.Valid.sameBrackets {allowed : List Text} {kind : Kind} {d : Definition}
    (h : d.Valid allowed kind) (hk : kind ∉ uncheckedKinds) :
    SameBrackets (lexemes d.words) (lexemes (wordsIn uncheckedKinds (d.branch kind))) := by
  have hkeyword : Nested (lexemes [d.function.keyword, d.function.name]) :=
    (nested_word h.function.keyword).append (nested_ident h.function.name)
  have hpath : wordsInAll uncheckedKinds
      (if d.function.path.isEmpty then [] else [.span .resourcePath d.function.path])
        = d.function.path := by
    cases d.function.path <;> simp
  have hloose : wordsIn uncheckedKinds (d.branch kind)
      = d.function.path ++ (wordsIn uncheckedKinds d.function.signature.branch
        ++ wordsInAll uncheckedKinds d.function.body.branches) := by
    rw [branch, wordsIn_node, if_neg hk, wordsInAll_append, Leading.wordsInAll_branches,
      Function.branches, wordsInAll_cons, wordsInAll_cons, wordsInAll_append, hpath]
    simp
  have hwords : d.words = (d.leading.words ++ [d.function.keyword, d.function.name])
      ++ (d.function.path ++ (d.function.signature.words ++ d.function.body.words)) := by
    simp [words, Function.words]
  have hfront : SameBrackets (lexemes d.leading.words
      ++ lexemes [d.function.keyword, d.function.name]) [] :=
    .of_nested (h.leading.nested.append hkeyword) .nil
  have hbody := Body.Valid.sameBrackets h.function.body
  rw [hloose, hwords]
  simp only [lexemes_append]
  exact hfront.append
    ((SameBrackets.refl _).append (h.function.signature.sameBrackets.append hbody))

namespace Grammar

variable {M : Type} {G : Grammar M}

/-- Members with semicolons between have the brackets of their unchecked words if each has. -/
theorem AllValid.sameBrackets
    (hm : ∀ {p : Option Lexeme} {m : M} {rest : List Lexeme}, G.Valid p m rest →
      SameBrackets (lexemes (G.branch m).words) (lexemes (wordsIn uncheckedKinds (G.branch m))))
    {items : List (Item M)} {p : Option Lexeme} {rest : List Lexeme}
    (h : G.AllValid p items rest) :
    SameBrackets (lexemes (G.words items))
      (lexemes (wordsInAll uncheckedKinds (items.map G.itemBranch))) := by
  induction items generalizing p with
  | nil => simpa using SameBrackets.refl []
  | cons item items ih =>
    rw [List.map_cons, wordsInAll_cons, lexemes_append]
    cases item with
    | semicolon w =>
      rw [words_semicolon, itemBranch, wordsIn_word]
      exact (SameBrackets.of_nested (nested_semicolon h.1) .nil).append (ih h.2)
    | member m =>
      rw [words_member, itemBranch, lexemes_append]
      exact (hm h.2.1).append (ih h.2.2)

end Grammar

theorem Other.Valid.sameBrackets {allowed : List Text} {p : Option Lexeme} {o : Other}
    {rest : List Lexeme} (h : o.Valid allowed p rest) :
    SameBrackets (lexemes o.branch.words) (lexemes (wordsIn uncheckedKinds o.branch)) := by
  rw [words_branch, branch, wordsIn_node, if_neg (by decide), wordsInAll_words]
  exact .of_nested h.nested .nil

theorem ServiceMember.sameBrackets {p : Option Lexeme} {m : ServiceMember} {rest : List Lexeme}
    (h : serviceGrammar.Valid p m rest) :
    SameBrackets (lexemes (serviceGrammar.branch m).words)
      (lexemes (wordsIn uncheckedKinds (serviceGrammar.branch m))) := by
  cases m with
  | function d =>
    rw [serviceGrammar_function, Definition.words_branch]
    refine Definition.Valid.sameBrackets h ?_
    unfold Leading.memberKind
    split <;> decide
  | other o => exact h.1.sameBrackets

theorem Service.Valid.sameBrackets {s : Service} {rest : List Lexeme} (h : s.Valid rest) :
    SameBrackets (lexemes s.words) (lexemes (wordsInAll uncheckedKinds s.branches)) := by
  have hattach : wordsInAll uncheckedKinds (attachBranches s.attach) = s.attach := by
    nth_rewrite 2 [← List.takeWhile_append_dropWhile (p := inType) (l := s.attach)]
    unfold attachBranches
    cases s.attach.takeWhile inType <;> cases s.attach.dropWhile inType <;> simp
  have hloose : wordsInAll uncheckedKinds s.branches = s.attach ++ (s.listener ++ ([s.opening]
      ++ (wordsInAll uncheckedKinds (s.items.map serviceGrammar.itemBranch) ++ [s.closing]))) := by
    cases hs : s.semicolon <;>
      simp [branches, headBranches, footBranches, hattach, hs]
  have hwords : s.words = [s.keyword] ++ (s.attach ++ ([s.on] ++ (s.listener ++ ([s.opening]
      ++ (serviceGrammar.words s.items ++ ([s.closing] ++ s.semicolon.toList)))))) := by
    simp [words, head, foot]
  have hsemicolon : SameBrackets (lexemes s.semicolon.toList) [] := by
    refine .of_nested ?_ .nil
    have hs := h.semicolon
    cases hcase : s.semicolon with
    | none => exact .nil
    | some w =>
      rw [hcase] at hs
      exact nested_semicolon hs
  have hitems := Grammar.AllValid.sameBrackets ServiceMember.sameBrackets h.items
  have hkeyword : SameBrackets (lexemes [s.keyword]) [] := .of_nested (nested_word h.keyword) .nil
  have hon : SameBrackets (lexemes [s.on]) [] := .of_nested (nested_word h.on) .nil
  have hfoot := (SameBrackets.refl (lexemes [s.closing])).append hsemicolon
  rw [List.append_nil] at hfoot
  rw [hloose, hwords]
  simp only [lexemes_append]
  exact hkeyword.append ((SameBrackets.refl _).append (hon.append ((SameBrackets.refl _).append
    ((SameBrackets.refl _).append (hitems.append hfoot)))))

theorem ModuleMember.sameBrackets {p : Option Lexeme} {m : ModuleMember} {rest : List Lexeme}
    (h : moduleGrammar.Valid p m rest) :
    SameBrackets (lexemes (moduleGrammar.branch m).words)
      (lexemes (wordsIn uncheckedKinds (moduleGrammar.branch m))) := by
  cases m with
  | declaration i =>
    have hi : wordsIn uncheckedKinds i.branch = i.branch.words := by
      rw [Import.branch, wordsIn_node, if_pos (by decide), words_node]
    rw [moduleGrammar_declaration, hi]
    exact .refl _
  | service leading s =>
    rw [moduleGrammar_service, words_node, wordsIn_node, if_neg (by decide), wordsAll_append,
      wordsInAll_append, Leading.wordsInAll_branches, Leading.wordsAll_branches,
      Service.wordsAll_branches, lexemes_append]
    exact (SameBrackets.of_nested h.1.nested .nil).append h.2.sameBrackets
  | function d =>
    rw [moduleGrammar_function, Definition.words_branch]
    exact Definition.Valid.sameBrackets h (by decide)
  | other o => exact h.1.sameBrackets

end Phrase

namespace Tree

/-- Whether a token lies in a node in which brackets need not match, or is a brace around one. -/
def unchecked (tree : Tree) (t : Token) : Bool :=
  housed uncheckedKinds [tree.root] t

/-- The brackets of a source that has a tree match exactly if those of its unchecked parts do. -/
theorem nested_iff_of_parse {source : Text} {tree : Tree} (h : parse source = .ok tree) :
    ∃ tokens, source.scan = .ok tokens ∧ (Nested (tokens.map (·.toLexeme))
      ↔ Nested ((tokens.filter tree.unchecked).map (·.toLexeme))) := by
  obtain ⟨items, tail, rfl, hv, hl, ht, rfl⟩ := exists_of_parse h
  have hroot : ∀ (text : Text) (bs : List Branch),
      (ofBranches text tail bs).unchecked = housed uncheckedKinds (nodesAll [] tail bs) := by
    intro text bs
    funext t
    simp [unchecked, housed, ofBranches, Node.walkAll, Node.walk]
  have hsame := Phrase.Grammar.AllValid.sameBrackets Phrase.ModuleMember.sameBrackets hv
  refine ⟨_, scan_of_legible hl ht, ?_⟩
  rw [tokensFrom_toLexeme, hroot, hsame.nested_iff]
  exact Iff.of_eq (congrArg Nested (filter_housedAll _ [] tail hl.text_ne_nil).symm)

theorem nested_iff_of_parse_service :
    let source : Text := "import a/b; service [int] /p on new (9) \x7b resource function get x/[
      int n]/y(int[] z) returns record \x7b||\x7d \x7b f(\x7b\x7d); \x7d \x7d".toList
    ∃ tree tokens, parse source = .ok tree ∧ source.scan = .ok tokens
      ∧ (tokens.filter tree.unchecked).length < tokens.length
      ∧ Nested (tokens.map (·.toLexeme)) := by
  intro source
  have hrun : ((parse source).toOption.any fun tree => source.scan.toOption.any fun tokens =>
      (tokens.filter tree.unchecked).length < tokens.length
        && decide (Nested ((tokens.filter tree.unchecked).map (·.toLexeme)))) = true := by
    simp only [source]
    rw [String.toList_ofList]
    decide +kernel
  obtain ⟨tree, hparse, hrun⟩ := exists_of_any hrun
  obtain ⟨tokens, hscan, hiff⟩ := nested_iff_of_parse hparse
  simp only [hscan, Except.toOption, Option.any_some, Bool.and_eq_true, decide_eq_true_eq] at hrun
  exact ⟨tree, tokens, hparse, hscan, hrun.1, hiff.2 hrun.2⟩

/-- Each of the unchecked parts can hold a bracket without a partner. -/
theorem exists_parse_not_nested :
    ["import (;", "service ( on x \x7b\x7d", "service /) on x \x7b\x7d",
      "service on \x7b| \x7b\x7d",
      "service on x \x7b resource function get )() \x7b\x7d \x7d"].Forall fun source =>
      ∃ tree tokens, parse source.toList = .ok tree ∧ Text.scan source.toList = .ok tokens
        ∧ ¬ Nested (tokens.map (·.toLexeme)) := by
  refine List.forall_iff_forall_mem.2 fun source hsource => ?_
  have hrun : ((parse source.toList).toOption.isSome
      && (Text.scan source.toList).toOption.any fun tokens =>
        decide (¬ Nested (tokens.map (·.toLexeme)))) = true := by
    simp only [List.mem_cons, List.not_mem_nil, or_false] at hsource
    rcases hsource with rfl | rfl | rfl | rfl | rfl <;>
      · rw [String.toList_ofList]
        decide +kernel
  rw [Bool.and_eq_true] at hrun
  obtain ⟨tree, hparse, -⟩ := exists_of_any (p := fun _ => true) (by simpa using hrun.1)
  obtain ⟨tokens, hscan, hnot⟩ := exists_of_any hrun.2
  exact ⟨tree, tokens, hparse, hscan, of_decide_eq_true hnot⟩

end Tree

end BalMediation
