import BalMediation.Proofs.ReadingModules

/-!
# Skeletons

The skeleton of a tree is what it says apart from offsets, rows and columns: kinds, values and
children. The parameters of a resource's signature are left out of it, since that is where
mediation adds one.

The skeleton of branches depends on the lexemes of their words and on the gaps inside of values, not
on where they stand, nor on the gap in front of them (`skeletonsAll_padAll`).
-/

namespace BalMediation

/-- A kind, the value and the skeletons of the children. -/
inductive Skeleton where
  | node (kind : Kind) (value : Option Text) (children : List Skeleton)

/-- Whether a node of this kind below one of another is the signature of a resource. -/
def isResourceSignature (parent kind : Kind) : Bool :=
  parent = .resourceAccessorDefinition && kind = .functionSignature

namespace Node

mutual

/-- The skeleton of a node below one of kind `parent`. -/
def skeleton (parent : Kind) : Node → Skeleton
  | ⟨kind, _, _, _, _, value, children⟩ =>
    .node kind value (skeletonAll (isResourceSignature parent kind) kind children)

/-- The skeletons of nodes below one of kind `parent`, without parameters if `bare` says so. -/
def skeletonAll (bare : Bool) (parent : Kind) : List Node → List Skeleton
  | [] => []
  | n :: ns =>
    if bare && n.kind = .parameter then skeletonAll bare parent ns
    else skeleton parent n :: skeletonAll bare parent ns

end

theorem skeletonAll_append (bare : Bool) (parent : Kind) (as bs : List Node) :
    skeletonAll bare parent (as ++ bs)
      = skeletonAll bare parent as ++ skeletonAll bare parent bs := by
  induction as with
  | nil => simp [skeletonAll]
  | cons a as ih =>
    rw [List.cons_append, skeletonAll, skeletonAll, ih]
    split <;> rfl

end Node

namespace Branch

mutual

/-- The skeleton of a branch below a node of kind `parent`; a word has none. -/
def skeletons (bare : Bool) (parent : Kind) : Branch → List Skeleton
  | word _ => []
  | node kind label bs =>
    if bare && kind = .parameter then []
    else [.node kind (labelled (wordsAll bs) label)
      (skeletonsAll (isResourceSignature parent kind) kind bs)]

/-- The skeletons of branches, one after the other. -/
def skeletonsAll (bare : Bool) (parent : Kind) : List Branch → List Skeleton
  | [] => []
  | b :: bs => skeletons bare parent b ++ skeletonsAll bare parent bs

end

section Skeletons

variable (bare : Bool) (parent : Kind)

@[simp] theorem skeletons_word (w : Word) : skeletons bare parent (word w) = [] := by rw [skeletons]

@[simp] theorem skeletonsAll_nil : skeletonsAll bare parent [] = [] := by rw [skeletonsAll]

@[simp] theorem skeletonsAll_cons (b : Branch) (bs : List Branch) :
    skeletonsAll bare parent (b :: bs)
      = skeletons bare parent b ++ skeletonsAll bare parent bs := by rw [skeletonsAll]

@[simp] theorem skeletonsAll_append (as bs : List Branch) :
    skeletonsAll bare parent (as ++ bs)
      = skeletonsAll bare parent as ++ skeletonsAll bare parent bs := by
  induction as with
  | nil => simp
  | cons a as ih => simp [ih]

@[simp] theorem skeletonsAll_words (ws : List Word) :
    skeletonsAll bare parent (ws.map word) = [] := by
  induction ws with
  | nil => simp
  | cons w ws ih => simp [ih]

mutual

theorem skeletonAll_nodes : ∀ (b : Branch) (bare : Bool) (parent : Kind) (before next : Text),
    Node.skeletonAll bare parent (nodes before next b) = skeletons bare parent b
  | .word w, bare, parent, before, next => by simp [Node.skeletonAll]
  | .node kind label bs, bare, parent, before, next => by
    rw [nodes_node, skeletons, Node.skeletonAll, Node.skeletonAll]
    have hbs := skeletonAll_nodesAll bs (isResourceSignature parent kind) kind before next
    simp only [nodeOver, Node.skeleton, hbs]
    rfl

theorem skeletonAll_nodesAll : ∀ (bs : List Branch) (bare : Bool) (parent : Kind)
    (before next : Text),
    Node.skeletonAll bare parent (nodesAll before next bs) = skeletonsAll bare parent bs
  | [], bare, parent, before, next => by simp [Node.skeletonAll]
  | b :: bs, bare, parent, before, next => by
    rw [nodesAll_cons, Node.skeletonAll_append, skeletonsAll_cons,
      skeletonAll_nodes b bare parent, skeletonAll_nodesAll bs bare parent]

end

end Skeletons

/-! ## A gap in front -/

mutual

/-- Puts a gap in front of the first word of a branch. -/
def padded (g : Text) : Branch → Branch
  | word w => word ⟨g ++ w.gap, w.lexeme⟩
  | node kind label bs => node kind label (padAll g bs)

/-- Puts a gap in front of the first word of branches. -/
def padAll (g : Text) : List Branch → List Branch
  | [] => []
  | b :: bs => if (words b).isEmpty then b :: padAll g bs else padded g b :: bs

end

theorem pad_append {g : Text} {as : List Word} (h : as ≠ []) (bs : List Word) :
    Lexer.pad g (as ++ bs) = Lexer.pad g as ++ bs := by
  cases as with
  | nil => exact absurd rfl h
  | cons a as => rfl

theorem caption_pad (g : Text) (ws : List Word) : caption (Lexer.pad g ws) = caption ws := by
  cases ws <;> rfl

mutual

theorem words_padded (g : Text) : ∀ b : Branch, (padded g b).words = Lexer.pad g b.words
  | .word w => by rw [padded, words_word, words_word]; rfl
  | .node kind label bs => by rw [padded, words_node, words_node, wordsAll_padAll g bs]

theorem wordsAll_padAll (g : Text) : ∀ bs : List Branch,
    wordsAll (padAll g bs) = Lexer.pad g (wordsAll bs)
  | [] => by rw [padAll]; rfl
  | b :: bs => by
    rw [padAll]
    split
    · rename_i hb
      rw [wordsAll_cons, wordsAll_padAll g bs, wordsAll_cons, List.isEmpty_iff.1 hb,
        List.nil_append, List.nil_append]
    · rename_i hb
      rw [wordsAll_cons, words_padded g b, wordsAll_cons, pad_append (by simpa using hb)]

end

mutual

theorem shapes_padded (g : Text) : ∀ (b : Branch) (i : Nat), (padded g b).shapes i = b.shapes i
  | .word w, i => by rw [padded, shapes_word, shapes_word]
  | .node kind label bs, i => by
    rw [padded, shapes_node, shapes_node, shapesAll_padAll g bs i, wordsAll_padAll,
      ← length_lexemes, lexemes_pad, length_lexemes]

theorem shapesAll_padAll (g : Text) : ∀ (bs : List Branch) (i : Nat),
    shapesAll i (padAll g bs) = shapesAll i bs
  | [], i => by rw [padAll]
  | b :: bs, i => by
    rw [padAll]
    split
    · rw [shapesAll_cons, shapesAll_padAll g bs, shapesAll_cons]
    · rw [shapesAll_cons, shapes_padded g b i, words_padded, shapesAll_cons,
        ← length_lexemes, lexemes_pad, length_lexemes]

end

theorem labelled_pad (g : Text) (ws : List Word) (label : Label) :
    labelled (Lexer.pad g ws) label = labelled ws label := by
  cases label <;> simp [labelled, caption_pad]

mutual

theorem skeletons_padded (g : Text) : ∀ (b : Branch) (bare : Bool) (parent : Kind),
    skeletons bare parent (padded g b) = skeletons bare parent b
  | .word w, bare, parent => by rw [padded, skeletons_word, skeletons_word]
  | .node kind label bs, bare, parent => by
    rw [padded, skeletons, skeletons, wordsAll_padAll, labelled_pad, skeletonsAll_padAll g bs]

/-- A gap in front does not show in the skeleton. -/
theorem skeletonsAll_padAll (g : Text) : ∀ (bs : List Branch) (bare : Bool) (parent : Kind),
    skeletonsAll bare parent (padAll g bs) = skeletonsAll bare parent bs
  | [], bare, parent => by rw [padAll]
  | b :: bs, bare, parent => by
    rw [padAll]
    split
    · rw [skeletonsAll_cons, skeletonsAll_padAll g bs, skeletonsAll_cons]
    · rw [skeletonsAll_cons, skeletons_padded g b, skeletonsAll_cons]

end

end Branch

namespace Tree

open Phrase Lexer

/-- The tree of items behind others and a gap. -/
theorem parse_of_padded {as bs : List (Item ModuleMember)} {g tail : Text}
    (hv : moduleGrammar.AllValid none (as ++ bs) [])
    (hl : Legible (moduleGrammar.words as ++ pad g (moduleGrammar.words bs)) tail)
    (ht : Trailing tail) {source : Text}
    (hs : source = spell (moduleGrammar.words as ++ pad g (moduleGrammar.words bs)) ++ tail) :
    parse source = .ok (ofBranches source tail
      (as.map moduleGrammar.itemBranch ++ Branch.padAll g (bs.map moduleGrammar.itemBranch))) := by
  have hwords : Branch.wordsAll (as.map moduleGrammar.itemBranch
      ++ Branch.padAll g (bs.map moduleGrammar.itemBranch))
      = moduleGrammar.words as ++ pad g (moduleGrammar.words bs) := by
    rw [Branch.wordsAll_append, Branch.wordsAll_padAll]
    rfl
  have hshapes : Branch.shapesAll 0 (as.map moduleGrammar.itemBranch
      ++ Branch.padAll g (bs.map moduleGrammar.itemBranch))
      = Branch.shapesAll 0 ((as ++ bs).map moduleGrammar.itemBranch) := by
    rw [List.map_append, Branch.shapesAll_append, Branch.shapesAll_padAll,
      Branch.shapesAll_append]
  have hmembers := Cursor.members_of_allValid hv
  have hlexemes : lexemes (moduleGrammar.words (as ++ bs))
      = lexemes (moduleGrammar.words as ++ pad g (moduleGrammar.words bs)) := by
    simp [Grammar.words]
  rw [hlexemes, ← hwords, ← hshapes] at hmembers
  rw [← hwords] at hl hs
  rw [hs]
  exact parse_of_members hl ht hmembers

/-- The tree of items behind others that leave nothing but a gap. -/
theorem exists_parse_of_gap {as bs : List (Item ModuleMember)} {g tail source : Text}
    (hv : moduleGrammar.AllValid none (as ++ bs) []) (hg : Gap g)
    (ha : ∀ t, Legible (moduleGrammar.words as) (g ++ t))
    (hb : Legible (moduleGrammar.words bs) tail) (ht : Trailing tail)
    (hs : source
      = spell (moduleGrammar.words as) ++ (g ++ (spell (moduleGrammar.words bs) ++ tail))) :
    ∃ tail', parse source = .ok (ofBranches source tail'
      (as.map moduleGrammar.itemBranch ++ Branch.padAll g (bs.map moduleGrammar.itemBranch))) := by
  by_cases hw : moduleGrammar.words bs = []
  · obtain rfl := (Grammar.allValid_append.1 hv).2.eq_nil hw
    rw [List.append_nil] at hv
    have hsource : source = spell (moduleGrammar.words as) ++ (g ++ tail) := by
      rw [hs, hw]
      rfl
    have htree := parse_of_valid hv (ha tail) (.gap_append hg ht)
    rw [hsource]
    exact ⟨g ++ tail, by simpa [Branch.padAll] using htree⟩
  · refine ⟨tail, parse_of_padded hv ?_ ht ?_⟩
    · rw [legible_append, spell_pad hw, List.append_assoc]
      exact ⟨ha _, hb.pad fun _ _ hgap => hg.append hgap⟩
    · rw [hs, spell_append, spell_pad hw]
      simp only [List.append_assoc]

end Tree

end BalMediation
