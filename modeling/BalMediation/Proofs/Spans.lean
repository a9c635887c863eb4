import BalMediation.Proofs.Plans

/-!
# Spans

Every node of a tree stands over the words of one branch (`exists_branch`), so what holds of the
branches that a grammar leaves holds of the nodes of every tree. What holds of them is shown for
each form of node (`HoldsThroughout`); that every node has one of these forms is shown once
(`ModuleMember.all`).

A node begins where the first of its words does and ends where the last does; the tokens in its span
are those of its words (`tokens_nodeOver`), and no token of another branch lies in it
(`not_liesIn_of_mem_walkAll`).
-/

namespace BalMediation

open Lexer Branch

/-- Whether a token lies in the span of a node. -/
def Token.liesIn (t : Token) (n : Node) : Bool :=
  n.start ≤ t.start && t.stop ≤ n.stop

/-- The tokens in the span of a node. -/
def Node.tokens (ts : List Token) (n : Node) : List Token :=
  ts.filter (·.liesIn n)

/-! ## Tokens of words -/

theorem tokensFrom_append (pos : Nat) (as bs : List Word) :
    tokensFrom pos (as ++ bs) = tokensFrom pos as ++ tokensFrom (pos + (spell as).length) bs := by
  induction as generalizing pos with
  | nil => simp [tokensFrom]
  | cons a as ih => simp [tokensFrom, ih, Word.text, Nat.add_assoc]

theorem bounds_of_mem_tokensFrom {pos : Nat} {ws : List Word} {t : Token}
    (h : t ∈ tokensFrom pos ws) :
    pos + (gapBefore [] ws).length ≤ t.start ∧ t.stop ≤ pos + (spell ws).length := by
  induction ws generalizing pos with
  | nil => simp [tokensFrom] at h
  | cons w ws ih =>
    simp only [spell_cons, List.length_append, gapBefore_cons]
    rcases List.mem_cons.1 h with rfl | h
    · simp only [Token.stop]
      omega
    · have := ih h
      simp only [Word.text, List.length_append] at this
      omega

theorem start_lt_stop {pos : Nat} {ws : List Word} (hws : ∀ w ∈ ws, w.lexeme.text ≠ []) {t : Token}
    (h : t ∈ tokensFrom pos ws) : t.start < t.stop := by
  induction ws generalizing pos with
  | nil => simp [tokensFrom] at h
  | cons w ws ih =>
    rcases List.mem_cons.1 h with rfl | h
    · have := List.length_pos_of_ne_nil (hws w List.mem_cons_self)
      simp only [Token.stop]
      omega
    · exact ih (fun v hv => hws v (List.mem_cons_of_mem _ hv)) h

theorem Lexer.Legible.text_ne_nil {ws : List Word} {t : Text} (h : Legible ws t) :
    ∀ w ∈ ws, w.lexeme.text ≠ [] := by
  induction ws with
  | nil => simp
  | cons w ws ih =>
    intro v hv
    rcases List.mem_cons.1 hv with rfl | hv
    · exact h.2.1.ne_nil
    · exact ih h.2.2 v hv

/-- The gap in front of words is no longer in front of more of them. -/
theorem length_gapBefore_append (next : Text) (as bs : List Word) :
    (gapBefore next (as ++ bs)).length ≤ (spell as).length + (gapBefore next bs).length := by
  cases as with
  | nil => simp
  | cons a as => simp; omega

/-- The tokens of some words among others are those between two offsets in the gaps around them. -/
theorem filter_tokensFrom {pre mid post : List Word}
    (hws : ∀ w ∈ pre ++ mid ++ post, w.lexeme.text ≠ []) {lo hi : Nat}
    (hpre : (spell pre).length ≤ lo)
    (hlo : mid ≠ [] → lo ≤ (spell pre).length + (gapBefore [] mid).length)
    (hhi : (spell (pre ++ mid)).length ≤ hi)
    (hpost : hi ≤ (spell (pre ++ mid)).length + (gapBefore [] post).length) :
    (tokensFrom 0 (pre ++ mid ++ post)).filter (fun t => lo ≤ t.start && t.stop ≤ hi)
      = tokensFrom (spell pre).length mid := by
  have hbefore : ∀ t ∈ tokensFrom 0 pre, ¬ (lo ≤ t.start && t.stop ≤ hi) = true := by
    intro t ht
    have hb := bounds_of_mem_tokensFrom ht
    have hlt := start_lt_stop (fun w hw => hws w (by simp [hw])) ht
    simp only [Bool.and_eq_true, decide_eq_true_eq]
    omega
  have hin : ∀ t ∈ tokensFrom (spell pre).length mid, (lo ≤ t.start && t.stop ≤ hi) = true := by
    intro t ht
    have hb := bounds_of_mem_tokensFrom ht
    have hlo := hlo (by rintro rfl; simp [tokensFrom] at ht)
    rw [spell_append, List.length_append] at hhi
    simp only [Bool.and_eq_true, decide_eq_true_eq]
    omega
  have hbehind : ∀ t ∈ tokensFrom (spell (pre ++ mid)).length post,
      ¬ (lo ≤ t.start && t.stop ≤ hi) = true := by
    intro t ht
    have hb := bounds_of_mem_tokensFrom ht
    have hlt := start_lt_stop (fun w hw => hws w (by simp [hw])) ht
    simp only [Bool.and_eq_true, decide_eq_true_eq]
    omega
  rw [tokensFrom_append, tokensFrom_append, List.filter_append, List.filter_append,
    List.filter_eq_nil_iff.2 hbefore, List.nil_append, Nat.zero_add, List.filter_eq_self.2 hin,
    Nat.zero_add, List.filter_eq_nil_iff.2 hbehind, List.append_nil]

/-- The tokens in the span of a node are those of its words. -/
theorem tokens_nodeOver {pre mid post : List Word}
    (hws : ∀ w ∈ pre ++ mid ++ post, w.lexeme.text ≠ []) (next : Text) (kind : Kind)
    (label : Label) (children : List Node) :
    (nodeOver (spell pre) next kind label mid children).tokens
        (tokensFrom 0 (pre ++ mid ++ post)) = tokensFrom (spell pre).length mid := by
  refine filter_tokensFrom hws ?_ (fun hmid => ?_) ?_ ?_
  · simp [nodeOver]
  · obtain ⟨w, mid, rfl⟩ := List.exists_cons_of_ne_nil hmid
    simp [nodeOver]
  · simp [nodeOver]
  · simp [nodeOver]

/-! ## Nodes of branches -/

namespace Branch

variable {P : Kind → Label → List Branch → Prop}

mutual

/-- Whether every node of a branch has the property `P`. -/
def All (P : Kind → Label → List Branch → Prop) : Branch → Prop
  | word _ => True
  | node kind label bs => P kind label bs ∧ AllIn P bs

/-- Whether every node of branches has the property `P`. -/
def AllIn (P : Kind → Label → List Branch → Prop) : List Branch → Prop
  | [] => True
  | b :: bs => All P b ∧ AllIn P bs

end

@[simp] theorem all_word (w : Word) : All P (word w) := by rw [All]; trivial

@[simp] theorem all_node {kind : Kind} {label : Label} {bs : List Branch} :
    All P (node kind label bs) ↔ P kind label bs ∧ AllIn P bs := by rw [All]

@[simp] theorem allIn_nil : AllIn P [] := by rw [AllIn]; trivial

@[simp] theorem allIn_cons {b : Branch} {bs : List Branch} :
    AllIn P (b :: bs) ↔ All P b ∧ AllIn P bs := by rw [AllIn]

@[simp] theorem allIn_append {as bs : List Branch} :
    AllIn P (as ++ bs) ↔ AllIn P as ∧ AllIn P bs := by
  induction as with
  | nil => simp [AllIn]
  | cons a as ih => simp [AllIn, ih, and_assoc]

theorem allIn_of_forall {bs : List Branch} (h : ∀ b ∈ bs, All P b) : AllIn P bs := by
  induction bs with
  | nil => simp [AllIn]
  | cons b bs ih =>
    rw [AllIn]
    exact ⟨h b List.mem_cons_self, ih fun c hc => h c (List.mem_cons_of_mem _ hc)⟩

theorem allIn_words (ws : List Word) : AllIn P (ws.map word) := by
  refine allIn_of_forall fun b hb => ?_
  obtain ⟨w, -, rfl⟩ := List.mem_map.1 hb
  rw [All]
  trivial

/-- Whether a node stands over words of a branch with the property `P`. The words are some of `ws`,
which stand behind the text `before` and in front of the gap `next`. -/
def Stands (P : Kind → Label → List Branch → Prop) (before next : Text) (ws : List Word)
    (n : Node) : Prop :=
  ∃ kind label bs pre post, P kind label bs ∧ ws = pre ++ wordsAll bs ++ post
    ∧ n = nodeOver (before ++ spell pre) (gapBefore next post) kind label (wordsAll bs)
        (nodesAll (before ++ spell pre) (gapBefore next post) bs)

mutual

theorem exists_branch_of_mem : ∀ (b : Branch) (before next : Text), All P b →
    ∀ n ∈ Node.walkAll (nodes before next b), Stands P before next b.words n
  | .word w, before, next, h, n, hn => by simp [Node.walkAll] at hn
  | .node kind label bs, before, next, h, n, hn => by
    rw [All] at h
    rw [nodes_node, Node.walkAll, nodeOver, Node.walk, Node.walkAll, List.append_nil,
      List.mem_cons] at hn
    rw [words_node]
    rcases hn with rfl | hn
    · exact ⟨kind, label, bs, [], [], h.1, by simp, by simp [nodeOver]⟩
    · exact exists_branch bs before next h.2 n hn

/-- Every node of branches stands over the words of one. -/
theorem exists_branch : ∀ (bs : List Branch) (before next : Text), AllIn P bs →
    ∀ n ∈ Node.walkAll (nodesAll before next bs), Stands P before next (wordsAll bs) n
  | [], before, next, h, n, hn => by simp [Node.walkAll] at hn
  | b :: bs, before, next, h, n, hn => by
    rw [AllIn] at h
    rw [nodesAll_cons, Node.walkAll_append, List.mem_append] at hn
    rcases hn with hn | hn
    · obtain ⟨kind, label, cs, pre, post, hp, hw, rfl⟩ := exists_branch_of_mem b _ _ h.1 n hn
      refine ⟨kind, label, cs, pre, post ++ wordsAll bs, hp, by simp [hw], ?_⟩
      rw [gapBefore_append]
    · obtain ⟨kind, label, cs, pre, post, hp, hw, rfl⟩ := exists_branch bs _ _ h.2 n hn
      refine ⟨kind, label, cs, b.words ++ pre, post, hp, by simp [hw], ?_⟩
      rw [spell_append, List.append_assoc]

end

mutual

theorem all_true : ∀ b : Branch, All (fun _ _ _ => True) b
  | .word w => by simp [All]
  | .node kind label bs => by
    rw [All]
    exact ⟨trivial, allIn_true bs⟩

theorem allIn_true : ∀ bs : List Branch, AllIn (fun _ _ _ => True) bs
  | [] => by simp [AllIn]
  | b :: bs => by
    rw [AllIn]
    exact ⟨all_true b, allIn_true bs⟩

end

/-- The nodes of branches stand between the first and the last of their words. -/
theorem bounds_of_mem_walkAll {before next : Text} {bs : List Branch} {n : Node}
    (h : n ∈ Node.walkAll (nodesAll before next bs)) :
    before.length + (gapBefore next (wordsAll bs)).length ≤ n.start
      ∧ n.stop ≤ before.length + (spell (wordsAll bs)).length := by
  obtain ⟨kind, label, cs, pre, post, -, hw, rfl⟩ :=
    exists_branch bs before next (allIn_true bs) n h
  have hgap := length_gapBefore_append next pre (wordsAll cs ++ post)
  rw [hw, List.append_assoc]
  simp only [nodeOver, List.length_append, spell_append, gapBefore_append] at hgap ⊢
  omega

/-- No token in front of branches or behind them lies in one of their nodes. -/
theorem not_liesIn_of_mem_walkAll {before next : Text} {bs : List Branch} {n : Node} {t : Token}
    (h : n ∈ Node.walkAll (nodesAll before next bs)) (hlt : t.start < t.stop)
    (ht : t.stop ≤ before.length ∨ before.length + (spell (wordsAll bs)).length ≤ t.start) :
    t.liesIn n = false := by
  have hb := bounds_of_mem_walkAll h
  simp only [Token.liesIn, Bool.and_eq_false_iff, decide_eq_false_iff_not]
  omega

end Branch

/-! ## What a grammar leaves -/

namespace Branch

/-- Whether a lexeme ends the name of an imported module. -/
def endsName (l : Lexeme) : Bool :=
  l.isOp [';'] || l.isWord "as".toList

/-- Whether words declare an import, and the label is the name of the module. -/
def Declares (label : Label) (ws : List Word) : Prop :=
  ∃ keyword name rest, ws = keyword :: (name ++ rest)
    ∧ label = .name (name.flatMap (·.lexeme.text)) ∧ (∀ w ∈ name, endsName w.lexeme = false)
    ∧ ∃ w ∈ rest.head?, endsName w.lexeme = true

/-- Branches of the given kinds, with semicolons between. -/
def Serial (ks : List Kind) (bs : List Branch) : Prop :=
  ∀ b ∈ bs, (∃ w, b = word w ∧ w.lexeme.isOp [';'] = true)
    ∨ ∃ kind label cs, b = node kind label cs ∧ kind ∈ ks ∧ wordsAll cs ≠ []

/-- The kinds of the members of a service. -/
def memberKinds : List Kind :=
  [.resourceAccessorDefinition, .objectMethodDefinition, .other]

/-- Whether branches are those of a service: members between two braces, and no other brace or
member. -/
def Houses (bs : List Branch) : Prop :=
  ∃ (front : List Branch) (opening : Word) (members : List Branch) (closing : Word)
      (back : List Word),
    bs = front ++ leaf .openBrace opening ::
      (members ++ leaf .closeBrace closing :: back.map word)
    ∧ (∀ kind ∈ kinds front, kind ∉ .openBrace :: .closeBrace :: memberKinds)
    ∧ Serial memberKinds members

/-- The kinds of nodes that stand over a single word and carry its text. -/
def wordKinds : List Kind :=
  [.keyword, .identifier, .openParen, .closeParen, .openBrace, .closeBrace]

/-- The kinds of nodes that have a form of their own. -/
def formedKinds : List Kind :=
  .importDeclaration :: .serviceDeclaration :: wordKinds

/-- What holds of the nodes that the grammar of a module leaves. -/
structure Sound (kind : Kind) (label : Label) (bs : List Branch) : Prop where
  ne_nil : kind ≠ .expression → wordsAll bs ≠ []
  begins : ∀ b ∈ bs.head?, b.words ≠ []
  unnamed : kind ≠ .importDeclaration → ∀ t, label ≠ .name t
  declares : kind = .importDeclaration → Declares label (wordsAll bs)
  houses : kind = .serviceDeclaration → Houses bs
  single : kind ∈ wordKinds → label = .own ∧ ∃ w, bs = [word w]

theorem Sound.plain {kind : Kind} {label : Label} {bs : List Branch} (hk : kind ∉ formedKinds)
    (hl : ∀ t, label ≠ .name t) (hne : kind ≠ .expression → wordsAll bs ≠ [])
    (hbegins : ∀ b ∈ bs.head?, b.words ≠ []) : Sound kind label bs := by
  simp only [formedKinds, List.mem_cons, not_or] at hk
  exact ⟨hne, hbegins, fun _ => hl, fun h => absurd h hk.1, fun h => absurd h hk.2.1,
    fun h => absurd h hk.2.2⟩

theorem words_ne_nil_of_append {as bs : List Branch} {b : Branch} (has : ∀ a ∈ as, a.words ≠ [])
    (hb : b.words ≠ []) : ∀ c ∈ (as ++ b :: bs).head?, c.words ≠ [] := by
  intro c hc
  cases as with
  | nil =>
    cases hc
    exact hb
  | cons a as =>
    cases hc
    exact has _ List.mem_cons_self

/-- The kinds of nodes that stand over a run of words and carry their text. -/
def runKinds : List Kind :=
  [.annotationAttachment, .parameter, .typeDescriptor, .resourcePath, .absoluteResourcePath,
    .expression]

/-- The kinds of nodes in a function that have nodes below them, signatures apart. -/
def innerKinds : List Kind :=
  [.returnTypeDescriptor, .functionBodyBlock, .expressionFunctionBody, .externalFunctionBody]

/-- Whether every node that the grammar leaves below a member has the property `P`, signatures
apart. -/
structure HoldsBelow (P : Kind → Label → List Branch → Prop) : Prop where
  leaf : ∀ {kind}, kind ∈ wordKinds → ∀ w, P kind .own [word w]
  run : ∀ {kind ws}, kind ∈ runKinds → (kind ≠ .expression → ws ≠ []) → P kind .own (ws.map word)
  inner : ∀ {kind bs}, kind ∈ innerKinds → wordsAll bs ≠ [] → (∀ b ∈ bs.head?, b.words ≠ []) →
    P kind .none bs

namespace HoldsBelow

variable {kind : Kind} (hP : HoldsBelow P)

include hP

theorem all_leaf (hk : kind ∈ wordKinds) (w : Word) : All P (Branch.leaf kind w) :=
  all_node.2 ⟨hP.leaf hk w, allIn_words [w]⟩

theorem all_span (hk : kind ∈ runKinds) {ws : List Word} (hne : kind ≠ .expression → ws ≠ []) :
    All P (span kind ws) :=
  all_node.2 ⟨hP.run hk hne, allIn_words ws⟩

theorem allIn_spans (hk : kind ∈ runKinds) (ws : List Word) :
    AllIn P (if ws.isEmpty then [] else [span kind ws]) := by
  split_ifs with hw
  · exact allIn_nil
  · exact allIn_cons.2 ⟨hP.all_span hk fun _ => by simpa using hw, allIn_nil⟩

end HoldsBelow

end Branch

theorem Cursor.Passes.forall_pass {rule : Option Lexeme → Lexeme → Step} {p : Option Lexeme}
    {ls : List Lexeme} (h : Passes rule p ls) (hrule : ∀ q l b, rule q l ≠ .group b) :
    ∀ l ∈ ls, ∃ q, rule q l = .pass := by
  induction h with
  | nil => simp
  | pass hl _ ih =>
    intro l hmem
    rcases List.mem_cons.1 hmem with rfl | hmem
    · exact ⟨_, hl⟩
    · exact ih l hmem
  | group hl => exact absurd hl (hrule _ _ _)

namespace Phrase

theorem Leading.words_ne_nil (h : Leading) : ∀ b ∈ h.branches, b.words ≠ [] := by
  intro b hb
  rcases List.mem_append.1 hb with hb | hb
  · obtain ⟨a, -, rfl⟩ := List.mem_map.1 hb
    simp [Attachment.branch, Attachment.words]
  · obtain ⟨w, -, rfl⟩ := List.mem_map.1 hb
    simp

section Below

variable {P : Kind → Label → List Branch → Prop} (hP : HoldsBelow P)

include hP

theorem Attachment.allIn (as : List Attachment) : AllIn P (as.map branch) := by
  refine allIn_of_forall fun b hb => ?_
  obtain ⟨a, -, rfl⟩ := List.mem_map.1 hb
  exact hP.all_span (by decide) (by simp [words])

theorem Leading.allIn (h : Leading) : AllIn P h.branches := by
  refine allIn_append.2 ⟨Attachment.allIn hP _, allIn_of_forall fun b hb => ?_⟩
  obtain ⟨w, -, rfl⟩ := List.mem_map.1 hb
  exact hP.all_leaf (by decide) w

theorem allIn_parameterBranches (depth : Nat) (run ws : List Word) :
    AllIn P (parameterBranches depth run ws) := by
  induction ws generalizing depth run with
  | nil => exact hP.allIn_spans (by decide) run
  | cons w ws ih =>
    rw [parameterBranches]
    split
    · exact allIn_append.2 ⟨hP.allIn_spans (by decide) run, allIn_cons.2 ⟨all_word w, ih _ _⟩⟩
    · exact ih _ _

theorem Returns.all {r : Returns} (ht : All P (.span .typeDescriptor r.type)) : All P r.branch := by
  simp only [branch, all_node, allIn_cons, allIn_append, allIn_nil, and_true]
  exact ⟨hP.inner (by decide) (by simp) (by simp), hP.all_leaf (by decide) _,
    Attachment.allIn hP _, all_node.1 ht⟩

theorem Signature.all {s : Signature}
    (hs : P .functionSignature .none
      (paramsBranches s.params ++ s.returns.toList.map Returns.branch))
    (ht : ∀ r ∈ s.returns, All P (.span .typeDescriptor r.type)) : All P s.branch := by
  refine all_node.2 ⟨hs, allIn_append.2 ⟨?_, allIn_of_forall fun b hb => ?_⟩⟩
  · simp only [paramsBranches, allIn_cons, allIn_append, allIn_nil, and_true]
    exact ⟨hP.all_leaf (by decide) _, allIn_parameterBranches hP _ _ _, hP.all_leaf (by decide) _⟩
  · obtain ⟨r, hr, rfl⟩ := List.mem_map.1 hb
    exact Returns.all hP (ht r (Option.mem_toList.1 hr))

theorem Body.allIn (b : Body) : AllIn P b.branches := by
  cases b with
  | block g =>
    simp only [branches, all_node, allIn_cons, allIn_append, allIn_nil, and_true]
    exact ⟨hP.inner (by decide) (by simp) (by simp), hP.all_leaf (by decide) _, allIn_words _,
      hP.all_leaf (by decide) _⟩
  | clause sign content semicolon =>
    simp only [branches, all_node, allIn_cons, allIn_nil, and_true]
    refine ⟨hP.inner ?_ (by simp) (by simp), allIn_words _⟩
    unfold clauseKind
    split <;> decide
  | bare semicolon => exact allIn_words [semicolon]

theorem Definition.allIn {d : Definition} (hs : All P d.function.signature.branch) :
    AllIn P (d.leading.branches ++ d.function.branches) := by
  simp only [Function.branches, allIn_cons, allIn_append]
  exact ⟨d.leading.allIn hP, hP.all_leaf (by decide) _, hP.all_leaf (by decide) _,
    hP.allIn_spans (by decide) _, hs, d.function.body.allIn hP⟩

theorem Service.allIn_head (s : Service) : AllIn P s.headBranches := by
  have hattach : AllIn P (attachBranches s.attach) :=
    allIn_append.2 ⟨hP.allIn_spans (by decide) _, hP.allIn_spans (by decide) _⟩
  simp only [headBranches, allIn_cons, allIn_append, allIn_nil, and_true]
  exact ⟨hP.all_leaf (by decide) _, hattach, hP.all_leaf (by decide) _,
    hP.all_span (by decide) (by simp), hP.all_leaf (by decide) _⟩

theorem Service.allIn_foot (s : Service) : AllIn P s.footBranches :=
  allIn_cons.2 ⟨hP.all_leaf (by decide) _, allIn_words _⟩

theorem Import.allIn (i : Import) : AllIn P (.word i.keyword :: (i.name.map .word
    ++ (i.aliasBranches ++ [.word i.semicolon]))) := by
  simp only [allIn_cons, allIn_append, all_word, allIn_words, allIn_nil, true_and, and_true]
  unfold aliasBranches
  cases i.renamed with
  | none => exact allIn_nil
  | some a =>
    refine allIn_cons.2 ⟨all_word _, allIn_append.2 ⟨allIn_of_forall fun b hb => ?_, allIn_words _⟩⟩
    obtain ⟨w, -, rfl⟩ := List.mem_map.1 hb
    exact hP.all_leaf (by decide) w

end Below

namespace Grammar

variable {M : Type} {G : Grammar M} {items : List (Item M)} {p : Option Lexeme}
  {rest : List Lexeme}

/-- What holds of every node of a valid member holds of every node of valid members. -/
theorem allIn {P : Kind → Label → List Branch → Prop}
    (hm : ∀ {p : Option Lexeme} {m : M} {rest : List Lexeme}, G.Valid p m rest →
      All P (G.branch m)) (h : G.AllValid p items rest) :
    AllIn P (items.map G.itemBranch) := by
  induction items generalizing p with
  | nil => exact allIn_nil
  | cons item items ih =>
    rw [List.map_cons, allIn_cons]
    cases item with
    | semicolon w => exact ⟨all_word w, ih h.2⟩
    | member m => exact ⟨hm h.2.1, ih h.2.2⟩

theorem allIn_sound
    (hm : ∀ {p : Option Lexeme} {m : M} {rest : List Lexeme}, G.Valid p m rest →
      All Sound (G.branch m)) (h : G.AllValid p items rest) :
    AllIn Sound (items.map G.itemBranch) :=
  allIn hm h

theorem serial {ks : List Kind}
    (hm : ∀ m : M, ∃ kind label bs, G.branch m = .node kind label bs ∧ kind ∈ ks)
    (h : G.AllValid p items rest) : Serial ks (items.map G.itemBranch) := by
  induction items generalizing p with
  | nil => simp [Serial]
  | cons item items ih =>
    intro b hb
    rw [List.map_cons, List.mem_cons] at hb
    cases item with
    | semicolon w =>
      rcases hb with rfl | hb
      · exact .inl ⟨w, rfl, h.1⟩
      · exact ih h.2 b hb
    | member m =>
      rcases hb with rfl | hb
      · obtain ⟨kind, label, bs, hbranch, hk⟩ := hm m
        obtain ⟨l, hl, -⟩ := h.1
        refine .inr ⟨kind, label, bs, hbranch, hk, fun hw => ?_⟩
        rw [hbranch, words_node, hw] at hl
        cases hl
      · exact ih h.2.2 b hb

end Grammar

theorem ServiceMember.exists_kind (m : ServiceMember) :
    ∃ kind label bs, serviceGrammar.branch m = .node kind label bs ∧ kind ∈ memberKinds := by
  cases m with
  | function d =>
    refine ⟨_, _, _, rfl, ?_⟩
    unfold Leading.memberKind
    split <;> decide
  | other o => exact ⟨_, _, _, rfl, by decide⟩

theorem Service.houses {s : Service} {rest : List Lexeme} (h : s.Valid rest) (leading : Leading) :
    Houses (leading.branches ++ s.branches) := by
  refine ⟨leading.branches ++ (.leaf .keyword s.keyword :: (attachBranches s.attach
    ++ [.leaf .keyword s.on, .span .expression s.listener])), s.opening,
    s.items.map serviceGrammar.itemBranch, s.closing, s.semicolon.toList, ?_, ?_,
    Grammar.serial ServiceMember.exists_kind h.items⟩
  · simp [branches, headBranches, footBranches]
  · intro kind hk
    rw [kinds_append, List.mem_append] at hk
    simp only [leaf, span, kinds, kinds_append, List.mem_cons, List.mem_append, List.not_mem_nil,
      or_false] at hk
    rcases hk with hk | rfl | hk | rfl | rfl
    · rcases leading.kinds_branches kind hk with rfl | rfl <;> decide
    · decide
    · rcases kinds_attachBranches _ kind hk with rfl | rfl <;> decide
    · decide
    · decide

theorem Import.declares {i : Import} (h : i.Valid) :
    Declares (.name (i.name.flatMap (·.lexeme.text))) i.words := by
  refine ⟨i.keyword, i.name, i.aliasWords ++ [i.semicolon], rfl, rfl, fun w hw => ?_, ?_⟩
  · have hrule : ∀ q l b, importRule q l ≠ .group b := by
      intro q l b
      unfold importRule
      split <;> simp
    obtain ⟨q, hq⟩ := h.name.forall_pass hrule w.lexeme (List.mem_map_of_mem hw)
    unfold importRule at hq
    split_ifs at hq with hend
    simpa [endsName] using hend
  · unfold aliasWords
    cases hr : i.renamed with
    | none => exact ⟨i.semicolon, rfl, by simp [endsName, h.semicolon]⟩
    | some a =>
      refine ⟨a.keyword, rfl, ?_⟩
      rw [endsName, (h.renamed a hr).keyword, Bool.or_true]

/-- Whether every node that the grammar of a module leaves has the property `P`. -/
structure HoldsThroughout (P : Kind → Label → List Branch → Prop) : Prop extends HoldsBelow P where
  member : ∀ {kind bs}, kind ∈ .functionDefinition :: memberKinds → wordsAll bs ≠ [] →
    (∀ b ∈ bs.head?, b.words ≠ []) → P kind .none bs
  signature : ∀ {s : Signature} {rest}, s.Valid rest →
    P .functionSignature .none
      (Signature.paramsBranches s.params ++ s.returns.toList.map Returns.branch)
  declaration : ∀ {i : Import}, i.Valid →
    P .importDeclaration (.name (i.name.flatMap (·.lexeme.text)))
      (.word i.keyword :: (i.name.map .word ++ (i.aliasBranches ++ [.word i.semicolon])))
  service : ∀ (leading : Leading) {s : Service} {rest}, s.Valid rest →
    P .serviceDeclaration .none (leading.branches ++ s.branches)

section Throughout

variable {P : Kind → Label → List Branch → Prop} (hP : HoldsThroughout P)

include hP

theorem Definition.all {allowed : List Text} {kind : Kind} {d : Definition}
    (h : d.Valid allowed kind) (hk : kind ∈ .functionDefinition :: memberKinds) :
    All P (d.branch kind) := by
  have hbelow := hP.toHoldsBelow
  refine all_node.2 ⟨hP.member hk (by simp [Function.words])
    (words_ne_nil_of_append d.leading.words_ne_nil (by simp)), Definition.allIn hbelow
      (Signature.all hbelow (hP.signature h.function.signature) fun r hr => ?_)⟩
  have hreturns := h.function.signature.returns
  rw [Option.mem_def.1 hr] at hreturns
  exact hbelow.all_span (by decide) fun _ => hreturns.ne_nil

theorem Other.all (o : Other) : All P o.branch := by
  refine all_node.2 ⟨hP.member (by decide) (fun hw => o.core_ne_nil ?_) ?_, allIn_words _⟩
  · rw [wordsAll_words] at hw
    rw [(List.append_eq_nil_iff.1 hw).2]
    rfl
  · cases o.leading.words ++ o.core <;> simp

theorem ServiceMember.all {p : Option Lexeme} {m : ServiceMember} {rest : List Lexeme}
    (h : serviceGrammar.Valid p m rest) : All P (serviceGrammar.branch m) := by
  cases m with
  | function d =>
    refine Definition.all hP h ?_
    unfold Leading.memberKind
    split <;> decide
  | other o => exact o.all hP

theorem ModuleMember.all {p : Option Lexeme} {m : ModuleMember} {rest : List Lexeme}
    (h : moduleGrammar.Valid p m rest) : All P (moduleGrammar.branch m) := by
  have hbelow := hP.toHoldsBelow
  cases m with
  | declaration i => exact all_node.2 ⟨hP.declaration h, i.allIn hbelow⟩
  | service leading s =>
    exact all_node.2 ⟨hP.service leading h.2, allIn_append.2 ⟨leading.allIn hbelow, allIn_append.2
      ⟨s.allIn_head hbelow, allIn_append.2 ⟨Grammar.allIn (ServiceMember.all hP) h.2.items,
        s.allIn_foot hbelow⟩⟩⟩⟩
  | function d => exact Definition.all hP h (by decide)
  | other o => exact o.all hP

end Throughout

theorem holdsThroughout_sound : HoldsThroughout Sound where
  leaf {kind} hk w := by
    have hform : kind ≠ .importDeclaration ∧ kind ≠ .serviceDeclaration := by
      constructor <;> rintro rfl <;> simp [wordKinds] at hk
    exact ⟨by simp, by simp, by simp, fun h => absurd h hform.1, fun h => absurd h hform.2,
      fun _ => ⟨rfl, w, rfl⟩⟩
  run {kind ws} hk hne := by
    have hform : ∀ kind ∈ runKinds, kind ∉ formedKinds := by decide
    refine .plain (hform kind hk) (by simp) (by simpa using hne) ?_
    cases ws <;> simp
  inner {kind bs} hk hne hbegins := by
    have hform : ∀ kind ∈ innerKinds, kind ∉ formedKinds := by decide
    exact .plain (hform kind hk) (by simp) (fun _ => hne) hbegins
  member {kind bs} hk hne hbegins := by
    have hform : ∀ kind ∈ .functionDefinition :: memberKinds, kind ∉ formedKinds := by decide
    exact .plain (hform kind hk) (by simp) (fun _ => hne) hbegins
  signature _ := .plain (by decide) (by simp) (by simp [Group.words]) (by simp [Signature.paramsBranches])
  declaration {i} h := by
    have hwords := i.words_branch
    rw [Import.branch, words_node] at hwords
    refine ⟨by simp, by simp, by simp, fun _ => ?_, by simp, by simp [wordKinds]⟩
    rw [hwords]
    exact Import.declares h
  service leading {s rest} h := by
    refine ⟨?_, words_ne_nil_of_append leading.words_ne_nil ?_, by simp, by simp,
      fun _ => Service.houses h leading, by simp [wordKinds]⟩
    · simp [Service.words, Service.head]
    · simp

/-- Every node that a member of a module leaves is sound. -/
theorem ModuleMember.all_sound {p : Option Lexeme} {m : ModuleMember} {rest : List Lexeme}
    (h : moduleGrammar.Valid p m rest) : All Sound (moduleGrammar.branch m) :=
  ModuleMember.all holdsThroughout_sound h

theorem ModuleMember.serial {p : Option Lexeme} {items : List (Item ModuleMember)}
    {rest : List Lexeme} (h : moduleGrammar.AllValid p items rest) :
    Serial Kind.all (items.map moduleGrammar.itemBranch) := by
  refine Grammar.serial (fun m => ?_) h
  cases m <;> exact ⟨_, _, _, rfl, by decide⟩

end Phrase

end BalMediation
