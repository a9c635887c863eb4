import BalMediation.Proofs.Remaking
import BalMediation.Proofs.Skeletons

/-!
# Mediation keeps the structure of a source

A generator that keeps return types and whose other answers are closed turns every phrase of a
source into a phrase with the same skeleton: a signature gets parameters, a block gets statements,
and all around them stays (`exists_mended`). So the patched source has a tree again, and its
skeleton is that of the source behind the import declarations that were added (`Imported.parse`).
-/

namespace BalMediation

open Lexer Segment Branch

/-- Whether a text is empty, or import declarations on lines of their own. -/
def ClosedImports (f : Text) : Prop :=
  f = [] ∨ (f.getLast? = some '\n' ∧ ∃ tree, Tree.parse f = .ok tree
    ∧ ∀ n ∈ tree.root.children, n.kind = .importDeclaration)

/-- Whether an answer leaves the structure of a source alone. -/
def Request.Closed : Request → Text → Prop
  | imports _, f => ClosedImports f
  | params _ _, f => ClosedParams f
  | returnType type _, f => f = type.text
  | record _ _, f => ClosedStatements f
  | block _ _, f => ClosedStatements f

/-- Whether a generator answers questions and leaves the structure of the source alone. -/
def Generator.Closed (g : Generator) (requests : List Request) : Prop :=
  ∀ r ∈ requests, ∃ f, g.answer r = .ok f ∧ r.Closed f

theorem Generator.closed_append {g : Generator} {as bs : List Request} :
    g.Closed (as ++ bs) ↔ g.Closed as ∧ g.Closed bs := by
  simp only [Closed, List.mem_append, or_imp, forall_and]

namespace Phrase

variable {g : Generator} {t : Text}

/-! ## Signatures -/

theorem skeletons_leaf {w w' : Word} (h : w'.lexeme = w.lexeme) (bare : Bool)
    (parent kind : Kind) :
    skeletons bare parent (leaf kind w') = skeletons bare parent (leaf kind w) := by
  simp [leaf, skeletons, labelled, caption, h]

theorem skeletonsAll_parameterBranches (parent : Kind) (depth : Nat) (run ws : List Word) :
    skeletonsAll true parent (parameterBranches depth run ws) = [] := by
  have hrun : ∀ r : List Word,
      skeletonsAll true parent (if r.isEmpty then [] else [.span .parameter r]) = [] := by
    intro r
    split <;> simp [span, skeletons]
  induction ws generalizing depth run with
  | nil => exact hrun run
  | cons w ws ih =>
    rw [parameterBranches]
    split
    · rw [skeletonsAll_append, hrun, skeletonsAll_cons, ih]
      simp
    · exact ih _ _

theorem skeletonsAll_paramsBranches {b : Bracket} {p p' : Group} (h : p.Valid b)
    (h' : p'.Valid b) (parent : Kind) :
    skeletonsAll true parent (Signature.paramsBranches p')
      = skeletonsAll true parent (Signature.paramsBranches p) := by
  simp only [Signature.paramsBranches, skeletonsAll_cons, skeletonsAll_append,
    skeletonsAll_parameterBranches, skeletons_leaf (h'.opening_eq.trans h.opening_eq.symm),
    skeletons_leaf (h'.closing_eq.trans h.closing_eq.symm)]

theorem Signature.Valid.congr {s : Signature} {rest rest' : List Lexeme} (h : s.Valid rest)
    (hne : rest ≠ []) (hr : rest'.head? = rest.head?) : s.Valid rest' := by
  obtain ⟨l, ls, rfl⟩ := List.exists_cons_of_ne_nil hne
  obtain ⟨ls', rfl⟩ : ∃ ls', rest' = l :: ls' := by
    cases rest' with
    | nil => cases hr
    | cons l' ls' =>
      cases hr
      exact ⟨ls', rfl⟩
  have hl : [l] ≠ [] := by simp
  exact Signature.Valid.of_append hl h

/-- What comes of a signature: the answer behind the parenthesis, and the answer in place of the
type. -/
theorem Signature.patchedAll_segments {s : Signature} {before next : Text} {ctx : Context}
    {f : Text} (hf : g.params (s.node before next) ctx = .ok f) {type : Returns → Text}
    (ht : ∀ r ∈ s.returns, g.returnType (r.typeNode (before ++ spell s.params.words) next) ctx
      = .ok (type r)) :
    patchedAll g (s.segments before next ctx)
      = .ok (spell [s.params.opening] ++ f ++ spell (s.params.inside ++ [s.params.closing])
        ++ match s.returns with
          | none => []
          | some r => spell (r.keyword :: r.annotations.flatMap Attachment.words)
            ++ (gapBefore next r.type ++ type r)) := by
  obtain ⟨params, returns⟩ := s
  have hparams : patched g (.params (Signature.node ⟨params, returns⟩ before next) ctx) = .ok f := hf
  cases returns with
  | none =>
    exact (patchedAll_cons rfl (patchedAll_cons hparams (patchedAll_cons rfl rfl))).trans (by simp)
  | some r =>
    have htype : patched g (.returnType (r.typeNode (before ++ spell params.words) next) ctx
      (caption r.type)) = .ok (type r) := ht r rfl
    exact (patchedAll_cons rfl (patchedAll_cons hparams (patchedAll_cons rfl
      (patchedAll_cons htype rfl)))).trans (by simp)

/-- A signature with other parameters and the same return type. -/
theorem Signature.Valid.mend_params {s : Signature} {rest : List Lexeme} (h : s.Valid rest)
    (hl : Legible s.words t) {before next : Text} {ctx : Context} {f : Text}
    (hf : g.params (s.node before next) ctx = .ok f)
    (ht : ∀ r ∈ s.returns, g.returnType (r.typeNode (before ++ spell s.params.words) next) ctx
      = .ok (caption r.type))
    {params : Group} (hv : params.Valid .paren)
    (hm : Mends (spell s.returnsWords ++ t) s.params.words params.words)
    (hspell : spell params.words
      = spell [s.params.opening] ++ f ++ spell (s.params.inside ++ [s.params.closing])) :
    Signature.Valid { s with params } rest
      ∧ Mends t s.words (Signature.words { s with params })
      ∧ patchedAll g (s.segments before next ctx) = .ok (spell (words { s with params })) := by
  rw [words, legible_append] at hl
  refine ⟨⟨hv, h.returns⟩, hm.append (.refl hl.2), ?_⟩
  have hwords : spell (words { s with params })
      = spell params.words ++ spell (returnsWords { s with params }) := spell_append _ _
  rw [patchedAll_segments hf ht, hwords, hspell]
  have hr := h.returns
  obtain ⟨params, returns⟩ := s
  cases returns with
  | none => simp [returnsWords]
  | some r =>
    have hr : r.Valid rest := hr
    simp [returnsWords, Returns.words, gapBefore_caption hr.ne_nil next]

/-- A closed answer keeps the return type. -/
theorem Signature.returnType_of_closed {s : Signature} {before next : Text} {ctx : Context}
    (ha : g.Closed ((s.segments before next ctx).flatMap requests)) :
    ∀ r ∈ s.returns, g.returnType (r.typeNode (before ++ spell s.params.words) next) ctx
      = .ok (caption r.type) := by
  intro r hr
  obtain ⟨f, hf, hkept⟩ := ha (.returnType (r.typeNode (before ++ spell s.params.words) next) ctx)
    (by simp [segments, requests, Option.mem_def.1 hr])
  have hkept : f = caption r.type := hkept
  rw [← hkept]
  exact hf

/-- A signature with the parameters that were asked for. -/
theorem Signature.mend {s : Signature} {rest : List Lexeme} (h : s.Valid rest)
    (hl : Legible s.words t) {before next : Text} {ctx : Context}
    (ha : g.Closed ((s.segments before next ctx).flatMap requests)) :
    ∃ s' : Signature, s'.Valid rest ∧ Mends t s.words s'.words
      ∧ patchedAll g (s.segments before next ctx) = .ok (spell s'.words)
      ∧ skeletons false .resourceAccessorDefinition s'.branch
        = skeletons false .resourceAccessorDefinition s.branch := by
  obtain ⟨f, hf, hclosed⟩ := ha (.params (s.node before next) ctx) (by simp [segments, requests])
  obtain ⟨params, hv, hm, hspell⟩ := exists_params h.params (legible_append.1 hl).1 hclosed
  obtain ⟨hv', hm', hp⟩ := h.mend_params hl hf (returnType_of_closed ha) hv hm hspell
  refine ⟨{ s with params }, hv', hm', hp, ?_⟩
  have hparams := skeletonsAll_paramsBranches h.params hv .functionSignature
  simp only [branch, skeletons, isResourceSignature, decide_true, Bool.and_self,
    skeletonsAll_append, hparams]
  rfl

/-! ## Bodies -/

theorem fills_body (shared : Bool) {record block : Text} (hr : ClosedStatements record)
    (hb : ClosedStatements block) :
    Fills (lead shared record block ++ record ++ block)
      ∧ ∀ c ∈ (lead shared record block ++ record ++ block).head?, isSpace c = true := by
  have hlead : Fills (lead shared record block)
      ∧ ∀ c ∈ (lead shared record block).head?, isSpace c = true := by
    unfold lead
    split
    · refine ⟨.newline, ?_⟩
      rintro c ⟨⟩
      rfl
    · exact ⟨.nil, by simp⟩
  refine ⟨(hlead.1.append hr.fills hr.isSpace_head).append hb.fills hb.isSpace_head, ?_⟩
  intro c hc
  rw [List.append_assoc, List.head?_append, List.head?_append] at hc
  rcases Option.or_eq_some_iff.1 hc with hc | ⟨-, hc⟩
  · exact hlead.2 c hc
  · rcases Option.or_eq_some_iff.1 hc with hc | ⟨-, hc⟩
    · exact hr.isSpace_head c hc
    · exact hb.isSpace_head c hc

/-- A body with the statements that were asked for. -/
theorem Body.mend {b : Body} (h : b.Valid) (hl : Legible b.words t) {width : Nat}
    {before next : Text} {ctx : Context}
    (ha : g.Closed ((b.segments width before next ctx).flatMap requests)) :
    ∃ b' : Body, b'.Valid ∧ Mends t b.words b'.words
      ∧ patchedAll g (b.segments width before next ctx) = .ok (spell b'.words)
      ∧ ∀ bare parent,
        skeletonsAll bare parent b'.branches = skeletonsAll bare parent b.branches := by
  cases b with
  | clause sign content semicolon =>
    exact ⟨.clause sign content semicolon, h, .refl hl,
      (patchedAll_cons rfl rfl).trans (by simp), fun _ _ => rfl⟩
  | bare semicolon =>
    exact ⟨.bare semicolon, h, .refl hl, (patchedAll_cons rfl rfl).trans (by simp), fun _ _ => rfl⟩
  | block p =>
    obtain ⟨record, hr, hrc⟩ := ha (.record (ctx.push (p.node before next)) (p.level width before))
      (by simp [segments, Group.segments, requests])
    obtain ⟨block, hb, hbc⟩ := ha (.block (ctx.push (p.node before next)) (p.level width before))
      (by simp [segments, Group.segments, requests])
    have hr : g.record (ctx.push (p.node before next)) (p.level width before) = .ok record := hr
    have hb : g.block (ctx.push (p.node before next)) (p.level width before) = .ok block := hb
    obtain ⟨hfills, hspace⟩ := fills_body (!decide (p.Alone before)) hrc hbc
    obtain ⟨p', hv, hm, hspell⟩ := exists_block h hl before hfills hspace
    refine ⟨.block p', hv, hm, ?_, fun bare parent => ?_⟩
    · have hbody : patched g (.body (!decide (p.Alone before)) (p.level width before)
          (ctx.push (p.node before next)))
          = .ok (lead (!decide (p.Alone before)) record block ++ record ++ block) := by
        simp [patched, hr, hb, bind, Except.bind, pure, Except.pure]
      refine (patchedAll_cons rfl (patchedAll_cons hbody (patchedAll_cons rfl rfl))).trans ?_
      simp [Body.words, hspell]
    · have hv' : p.Valid .brace := h
      simp only [branches, skeletonsAll_cons, skeletons, skeletonsAll_append, skeletonsAll_words,
        skeletonsAll_nil, skeletons_leaf (hv.opening_eq.trans hv'.opening_eq.symm),
        skeletons_leaf (hv.closing_eq.trans hv'.closing_eq.symm)]
      rfl

/-! ## Resources -/

theorem Definition.skeletons_branch (d : Definition) (parent : Kind) :
    skeletons false parent (d.branch .resourceAccessorDefinition)
      = [.node .resourceAccessorDefinition none
        (skeletonsAll false .resourceAccessorDefinition d.frontBranches
          ++ (skeletons false .resourceAccessorDefinition d.function.signature.branch
            ++ skeletonsAll false .resourceAccessorDefinition d.function.body.branches))] := by
  rw [branch, branches_eq]
  simp [skeletons, isResourceSignature, labelled]

/-- Resources with the same skeleton. -/
def Definition.SameSkeleton (d d' : Definition) : Prop :=
  ∀ parent, skeletons false parent (d'.branch .resourceAccessorDefinition)
    = skeletons false parent (d.branch .resourceAccessorDefinition)

/-- A resource with the code that was asked for. -/
theorem Definition.mend (g : Generator) (source : Text) (width : Nat) :
    Remakes g (fun r => ∃ f, g.answer r = .ok f ∧ r.Closed f) source width SameSkeleton := by
  intro d before next t ctx h hd _ ha
  have hparts := hd.legible
  rw [words_eq, legible_append, legible_append] at hparts
  rw [segments, List.flatMap_cons, List.flatMap_append, List.forall_mem_append,
    List.forall_mem_append] at ha
  obtain ⟨s', hs, hms, hps, hks⟩ := Signature.mend h.function.signature hparts.2.1 ha.2.1
  obtain ⟨b', hb, hmb, hpb, hkb⟩ := Body.mend h.function.body hparts.2.2 ha.2.2
  have hne : lexemes d.function.body.words ≠ [] := by
    simpa [lexemes] using d.function.body.words_ne_nil
  refine ⟨d.remade s' b', rfl, h.remade (hs.congr hne hmb.first) hb,
    mends_remade hd.legible (hms.append hmb), patchedAll_remade hps hpb, fun parent => ?_⟩
  rw [skeletons_branch, skeletons_branch]
  simp only [remade, hks, hkb]
  rfl

/-! ## Services and modules -/

theorem Grammar.skeletonsAll_of_rel {M : Type} {G : Grammar M} {R : M → M → Prop} {parent : Kind}
    (hR : ∀ {m m' : M}, R m m' →
      skeletons false parent (G.branch m') = skeletons false parent (G.branch m))
    {items items' : List (Item M)} (h : List.Forall₂ (Item.Rel R) items items') :
    skeletonsAll false parent (items'.map G.itemBranch)
      = skeletonsAll false parent (items.map G.itemBranch) := by
  induction h with
  | nil => rfl
  | cons hi _ ih =>
    rw [List.map_cons, List.map_cons, skeletonsAll_cons, skeletonsAll_cons, ih]
    cases hi with
    | semicolon w => rfl
    | member hm => rw [itemBranch, itemBranch, hR hm]

theorem ServiceMember.skeletons_of_rel {m m' : ServiceMember}
    (h : Rel Definition.SameSkeleton m m') :
    skeletons false .serviceDeclaration (serviceGrammar.branch m')
      = skeletons false .serviceDeclaration (serviceGrammar.branch m) := by
  cases h with
  | other o => rfl
  | method hk => rfl
  | resource hk hlead hs =>
    rw [serviceGrammar_function, serviceGrammar_function, hlead, hk]
    exact hs _

theorem ModuleMember.skeletons_of_rel {m m' : ModuleMember}
    (h : Rel Definition.SameSkeleton m m') :
    skeletons false .modulePart (moduleGrammar.branch m')
      = skeletons false .modulePart (moduleGrammar.branch m) := by
  cases h with
  | declaration i => rfl
  | function d => rfl
  | other o => rfl
  | @service leading s items hitems =>
    have hnode : ∀ bs, skeletons false .modulePart (.node .serviceDeclaration .none bs)
        = [.node .serviceDeclaration none (skeletonsAll false .serviceDeclaration bs)] := by
      simp [skeletons, isResourceSignature, labelled]
    have hk := Grammar.skeletonsAll_of_rel ServiceMember.skeletons_of_rel hitems
    rw [moduleGrammar_service, moduleGrammar_service, hnode, hnode]
    simp only [skeletonsAll_append, Service.branches, hk]
    rfl

/-! ## Imports -/

/-- Items that leave import declarations only are valid in front of anything, and end in a
semicolon. -/
theorem imports_valid {items : List (Item ModuleMember)} {p : Option Lexeme} {rest : List Lexeme}
    (h : moduleGrammar.AllValid p items rest)
    (hk : ∀ kind ∈ kinds (items.map moduleGrammar.itemBranch), kind = .importDeclaration) :
    (∀ rest', moduleGrammar.AllValid p items rest')
      ∧ (items = [] ∨ ∃ init w, moduleGrammar.words items = init ++ [w]
        ∧ w.lexeme.isOp [';'] = true) := by
  induction items generalizing p with
  | nil => exact ⟨fun _ => trivial, .inl rfl⟩
  | cons item items ih =>
    cases item with
    | semicolon w =>
      obtain ⟨hv, hlast⟩ := ih h.2 fun kind hm => hk kind hm
      refine ⟨fun rest' => ⟨h.1, hv rest'⟩, .inr ?_⟩
      rcases hlast with rfl | ⟨init, v, hv, hs⟩
      · exact ⟨[], w, by simp, h.1⟩
      · exact ⟨w :: init, v, by simp [hv], hs⟩
    | member m =>
      obtain ⟨hb, hm, hitems⟩ := h
      rw [List.map_cons, Grammar.itemBranch] at hk
      cases m with
      | service leading s => exact absurd (hk _ List.mem_cons_self) (by decide)
      | function d => exact absurd (hk _ List.mem_cons_self) (by decide)
      | other o => exact absurd (hk _ List.mem_cons_self) (by decide)
      | declaration i =>
        obtain ⟨hv, hlast⟩ := ih hitems fun kind hm => hk kind (List.mem_cons_of_mem _ hm)
        refine ⟨fun rest' => ⟨hb, hm, hv rest'⟩, .inr ?_⟩
        have hi : i.Valid := hm
        rcases hlast with rfl | ⟨init, v, hv, hs⟩
        · exact ⟨i.keyword :: (i.name ++ i.aliasWords), i.semicolon, by simp [Import.words],
            hi.semicolon⟩
        · exact ⟨i.words ++ init, v, by simp [hv], hs⟩

end Phrase

namespace Tree

/-- The skeletons of the members of a module. -/
def skeletons (t : Tree) : List Skeleton :=
  Node.skeletonAll false t.root.kind t.root.children

theorem skeletons_ofBranches (source tail : Text) (bs : List Branch) :
    (ofBranches source tail bs).skeletons = skeletonsAll false .modulePart bs :=
  skeletonAll_nodesAll bs false .modulePart [] tail

end Tree

open Phrase Cursor

/-- What import declarations are made of, and that they can stand in front of a source. -/
structure Imported (f : Text) (items : List (Item ModuleMember)) (tail : Text) : Prop where
  text : f = spell (moduleGrammar.words items) ++ tail
  gap : Gap tail
  legible : ∀ t, Legible (moduleGrammar.words items) (tail ++ t)
  valid : ∀ rest, moduleGrammar.AllValid none items rest
  only : ∀ kind ∈ kinds (items.map moduleGrammar.itemBranch), kind = .importDeclaration
  latest : opensTypeBody (latest none (lexemes (moduleGrammar.words items))) = false
  tree : ∃ tree, Tree.parse f = .ok tree ∧ (∀ n ∈ tree.root.children, n.kind = .importDeclaration)
    ∧ tree.skeletons = skeletonsAll false .modulePart (items.map moduleGrammar.itemBranch)

theorem ClosedImports.exists_imported {f : Text} (h : ClosedImports f) :
    ∃ items tail, Imported f items tail := by
  rcases h with rfl | ⟨hlast, tree, hparse, hkinds⟩
  · have hparse : Tree.parse (spell (moduleGrammar.words []) ++ [])
        = .ok (Tree.ofBranches (spell (moduleGrammar.words []) ++ []) []
          ([].map moduleGrammar.itemBranch)) :=
      Tree.parse_of_valid trivial trivial (.gap .nil)
    exact ⟨[], [], rfl, .nil, fun _ => trivial, fun _ => trivial, by simp [kinds], rfl, _, hparse,
      by simp [Tree.ofBranches], Tree.skeletons_ofBranches _ _ _⟩
  · obtain ⟨items, tail, rfl, hv, hl, ht, rfl⟩ := Tree.exists_of_parse hparse
    have hk : ∀ kind ∈ kinds (items.map moduleGrammar.itemBranch), kind = .importDeclaration := by
      intro kind hm
      rw [← map_kind_nodesAll [] tail] at hm
      obtain ⟨n, hn, rfl⟩ := List.mem_map.1 hm
      exact hkinds n hn
    obtain ⟨hvalid, hend⟩ := imports_valid hv hk
    have hne : tail ≠ [] := by
      rintro rfl
      rw [List.append_nil] at hlast
      rcases hend with rfl | ⟨init, w, hw, hs⟩
      · simp at hlast
      · have hsemi : w.lexeme.text = [';'] := by
          simp only [Lexeme.isOp, Bool.and_eq_true, beq_iff_eq] at hs
          exact hs.2
        rw [hw, spell_append, spell_cons, spell_nil, List.append_nil, hsemi, ← List.append_assoc,
          List.getLast?_concat] at hlast
        exact absurd hlast (by decide)
    have hg : Gap tail := by
      obtain ⟨r, c, rfl⟩ := List.eq_nil_or_concat tail |>.resolve_left hne
      rw [List.concat_eq_append] at hlast ht ⊢
      rw [← List.append_assoc, List.getLast?_concat] at hlast
      cases hlast
      exact ht.gap_of_newline
    refine ⟨items, tail, rfl, hg, fun t => hl.of_ahead (ahead_gap hg hne t).symm, hvalid, hk, ?_,
      _, hparse, hkinds, Tree.skeletons_ofBranches _ _ _⟩
    rcases hend with rfl | ⟨init, w, hw, hs⟩
    · rfl
    · rw [hw, lexemes_append, latest_append]
      simp [opensTypeBody, Lexeme.isWord_of_isOp hs]

/-- The tree of a source with import declarations in front. -/
theorem Imported.exists_tree {f gap : Text} {imports : List (Item ModuleMember)}
    (h : Imported f imports gap) {items : List (Item ModuleMember)} {tail : Text}
    (hv : moduleGrammar.AllValid none items []) (hl : Legible (moduleGrammar.words items) tail)
    (ht : Trailing tail) {source : Text}
    (hs : source = f ++ (spell (moduleGrammar.words items) ++ tail)) :
    ∃ tail', Tree.parse source = .ok (Tree.ofBranches source tail'
      (imports.map moduleGrammar.itemBranch ++ padAll gap (items.map moduleGrammar.itemBranch))) := by
  have hall : moduleGrammar.AllValid none (imports ++ items) [] := by
    rw [Grammar.allValid_append]
    exact ⟨h.valid _, hv.congr moduleGrammar_local h.latest.symm rfl⟩
  refine Tree.exists_parse_of_gap hall h.gap h.legible hl ht ?_
  rw [hs, h.text, List.append_assoc]

theorem Imported.parse {f gap : Text} {imports : List (Item ModuleMember)}
    (h : Imported f imports gap) {items : List (Item ModuleMember)} {tail : Text}
    (hv : moduleGrammar.AllValid none items []) (hl : Legible (moduleGrammar.words items) tail)
    (ht : Trailing tail) :
    ∃ tree, Tree.parse (f ++ (spell (moduleGrammar.words items) ++ tail)) = .ok tree
      ∧ tree.root.kind = .modulePart ∧ tree.root.value = none
      ∧ tree.skeletons = skeletonsAll false .modulePart (imports.map moduleGrammar.itemBranch)
        ++ skeletonsAll false .modulePart (items.map moduleGrammar.itemBranch) := by
  obtain ⟨tail', hparse⟩ := h.exists_tree hv hl ht rfl
  refine ⟨_, hparse, rfl, rfl, ?_⟩
  rw [Tree.skeletons_ofBranches, skeletonsAll_append, skeletonsAll_padAll]

/-- A module with the code that was asked for. -/
theorem exists_mended {g : Generator} {items : List (Item ModuleMember)} {tail : Text}
    (hv : moduleGrammar.AllValid none items []) (hl : Legible (moduleGrammar.words items) tail)
    {width : Nat} {ctx : Context}
    (hg : g.Closed ((moduleSegments width ctx tail items).flatMap Segment.requests)) :
    ∃ items', moduleGrammar.AllValid none items' [] ∧ Legible (moduleGrammar.words items') tail
      ∧ patchedAll g (moduleSegments width ctx tail items)
        = .ok (spell (moduleGrammar.words items') ++ tail)
      ∧ skeletonsAll false .modulePart (items'.map moduleGrammar.itemBranch)
        = skeletonsAll false .modulePart (items.map moduleGrammar.itemBranch) := by
  obtain ⟨items', hv', hl', hp, hr⟩ := exists_remade (Definition.mend g _ width) hv hl rfl hg
  exact ⟨items', hv', hl', hp, Grammar.skeletonsAll_of_rel ModuleMember.skeletons_of_rel hr⟩

/-- Mediation with closed answers keeps the structure of a source: the patched text has a tree, and
its skeleton is that of the source behind the imports. -/
theorem Patch.parse_patched {source : Text} {tree : Tree} (h : Tree.parse source = .ok tree)
    {width : Int} (hw : 0 < width) : ∃ requests, Patch.requests tree width.toNat = .ok requests
      ∧ ∀ g : Generator, g.Closed requests →
        ∃ es patched tree' imports added, Patch.edits tree g width = .ok es
          ∧ Edit.apply source es = .ok patched ∧ Tree.parse patched = .ok tree'
          ∧ tree'.root.kind = tree.root.kind ∧ tree'.root.value = tree.root.value
          ∧ g.imports (Context.root tree.root) = .ok imports ∧ Tree.parse imports = .ok added
          ∧ (∀ n ∈ added.root.children, n.kind = .importDeclaration)
          ∧ tree'.skeletons = added.skeletons ++ tree.skeletons := by
  obtain ⟨items, tail, hs, hv, hl, ht, rfl⟩ := Tree.exists_of_parse h
  have hskeletons := Tree.skeletons_ofBranches source tail (items.map moduleGrammar.itemBranch)
  have hsites := sites_of_items hv hs width.toNat
  generalize hn : (Tree.ofBranches source tail (items.map moduleGrammar.itemBranch)).root = n
    at hsites
  have htree : Tree.ofBranches source tail (items.map moduleGrammar.itemBranch) = ⟨source, n⟩ := by
    rw [← hn]
    rfl
  have hkind : n.kind = .modulePart ∧ n.value = none := by
    rw [← hn]
    exact ⟨rfl, rfl⟩
  rw [htree] at hsites hskeletons ⊢
  have hsites : Patch.sites ⟨source, n⟩ width.toNat = .ok (sitesAll ([] : Text).length
    (moduleSegments width.toNat (Context.root n) tail items)) := hsites
  refine ⟨_, requests_of_sites hsites, fun g hg => ?_⟩
  obtain ⟨es, hes⟩ := exists_edits hw hsites fun r hr => (hg r hr).imp fun _ => And.left
  obtain ⟨hg, himports⟩ := Generator.closed_append.1 hg
  obtain ⟨f, hf, hclosed⟩ := himports _ (List.mem_singleton.2 rfl)
  obtain ⟨items', hv', hl', hp, hk⟩ := exists_mended hv hl hg
  obtain ⟨decls, gap, hdecls⟩ := ClosedImports.exists_imported hclosed
  obtain ⟨tree', hparse, hkind', hvalue', hskeletons'⟩ := hdecls.parse hv' hl' ht
  obtain ⟨added, hadded, honly, hsadded⟩ := hdecls.tree
  have htext : source = [] ++ textAll (moduleSegments width.toNat (Context.root n) tail items)
      ++ [] := by
    rw [textAll_moduleSegments hv, hs]
    simp
  obtain ⟨imports, new, hf', hnew, hwoven⟩ :=
    woven_edits htext (fitAll_moduleSegments hv tail _ _) hsites hes
  have hf : g.imports (Context.root n) = .ok f := hf
  rw [hf] at hf'
  cases hf'
  rw [hp] at hnew
  cases hnew
  rw [List.nil_append, List.append_nil] at hwoven
  refine ⟨es, _, tree', f, added, hes, hwoven.apply, hparse, ?_, ?_, hf, hadded, honly, ?_⟩
  · rw [hkind', hkind.1]
  · rw [hvalue', hkind.2]
  · rw [hskeletons', hsadded, hk, hskeletons]

theorem Patch.parse_patched_resource :
    let source : Text :=
      "service / on x \x7b resource function get a(b c) returns d \x7b \x7d \x7d".toList
    let g := { Generator.constant "import e;\n" "f g, " "" " h();\n" "" with
      returnType := fun type _ => .ok type.text }
    ∃ tree es patched tree' added, Tree.parse source = .ok tree ∧ Patch.edits tree g 4 = .ok es
      ∧ Edit.apply source es = .ok patched ∧ Tree.parse patched = .ok tree'
      ∧ Tree.parse "import e;\n".toList = .ok added
      ∧ tree'.skeletons = added.skeletons ++ tree.skeletons := by
  intro source g
  have hrun : (Tree.parse source).toOption.isSome = true := by
    simp only [source]
    rw [String.toList_ofList]
    decide +kernel
  obtain ⟨tree, hrun⟩ := Option.isSome_iff_exists.1 hrun
  have hparse : Tree.parse source = .ok tree := ok_of_toOption hrun
  have himports : ClosedImports "import e;\n".toList := by
    have hrun : ((Tree.parse "import e;\n".toList).toOption.any fun tree =>
        tree.root.children.all (·.kind = .importDeclaration)) = true := by decide +kernel
    obtain ⟨added, hadded, hall⟩ := exists_of_any hrun
    exact .inr ⟨by decide, added, hadded, by simpa using hall⟩
  have hparams : ClosedParams "f g, ".toList := by
    refine .inr ⟨by decide, by decide, ⟨_, show Text.scan _ = .ok [⟨⟨.ident, ['f']⟩, 0⟩,
      ⟨⟨.ident, ['g']⟩, 2⟩, ⟨⟨.op, [',']⟩, 3⟩] by decide +kernel, ?_⟩, .inl (by decide)⟩
    exact .plain (by decide) (by decide) (.plain (by decide) (by decide)
      (.plain (by decide) (by decide) .nil))
  have hrecord : ClosedStatements " h();\n".toList := by
    refine .inr ⟨.inl (by decide), by decide, _, show Text.scan _ = .ok [⟨⟨.ident, ['h']⟩, 1⟩,
      ⟨⟨.op, ['(']⟩, 2⟩, ⟨⟨.op, [')']⟩, 3⟩, ⟨⟨.op, [';']⟩, 4⟩] by decide +kernel, ?_⟩
    exact .plain (by decide) (by decide) (.group (b := .paren) (by decide) .nil
      (by decide) (.plain (by decide) (by decide) .nil))
  have hclosed : ∀ requests, g.Closed requests := by
    intro requests r _
    cases r with
    | imports ctx => exact ⟨_, rfl, himports⟩
    | params signature ctx => exact ⟨_, rfl, hparams⟩
    | returnType type ctx => exact ⟨_, rfl, rfl⟩
    | record ctx level => exact ⟨_, rfl, hrecord⟩
    | block ctx level => exact ⟨_, rfl, .inl rfl⟩
  obtain ⟨requests, -, hmended⟩ := Patch.parse_patched hparse (show (0 : Int) < 4 by decide)
  obtain ⟨es, patched, tree', imports, added, hes, happly, hparse', -, -, hi, hadded, -, hs⟩ :=
    hmended g (hclosed requests)
  cases hi
  exact ⟨tree, es, patched, tree', added, hparse, hes, happly, hparse', hadded, hs⟩

end BalMediation
