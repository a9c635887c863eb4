import BalMediation.Proofs.Visits

/-!
# Interiors

Where the end of a block is. Code for a block goes to a point in front of its closing brace that is
found by looking at the characters of a line. That point lies in the gap between the brace and the
token before it (`Group.exists_cut`), so it is behind everything in the block, and only indentation
stands between it and the brace (`Group.endsBlock`).

A comment cannot reach the point: in the gap a comment runs up to its newline, and the point lies
behind it (`Lexer.commentsFrom_gap`).
-/

namespace BalMediation

open Branch Lexer Phrase

/-! ## Comments -/

namespace Lexer

/-- The comments of a text that begins at offset `pos` of the source: where each begins, and where
it ends, which is in front of a newline or at the end of the source. -/
def commentsFrom (pos : Nat) : Text → List (Nat × Nat)
  | [] => []
  | c :: cs =>
    if isSpace c then commentsFrom (pos + 1) cs
    else if startsComment (c :: cs) then
      let body := cs.takeWhile (· != '\n')
      (pos, pos + 1 + body.length) :: commentsFrom (pos + 1 + body.length) (cs.drop body.length)
    else
      match next c cs with
      | .error _ => []
      | .ok (_, n) => commentsFrom (pos + 1 + n) (cs.drop n)
termination_by t => t.length
decreasing_by all_goals simp only [List.length_cons, List.length_drop]; omega

theorem le_of_mem_commentsFrom {pos : Nat} {t : Text} {c : Nat × Nat}
    (h : c ∈ commentsFrom pos t) : pos ≤ c.1 := by
  fun_induction commentsFrom pos t with
  | case1 => cases h
  | case2 pos d cs _ ih =>
    have := ih h
    omega
  | case3 pos d cs _ _ body ih =>
    rcases List.mem_cons.1 h with rfl | h
    · exact Nat.le_refl _
    · have := ih h
      omega
  | case4 => cases h
  | case5 pos d cs _ _ kind n _ ih =>
    have := ih h
    omega

theorem commentsFrom_comment {t r : Text} (h : Comment t) (hr : ∀ c ∈ r.head?, c = '\n')
    (pos : Nat) :
    commentsFrom pos (t ++ r) = (pos, pos + t.length) :: commentsFrom (pos + t.length) r := by
  cases t with
  | nil => exact absurd rfl h.ne_nil
  | cons c t =>
    rw [List.cons_append, commentsFrom, if_neg (by simp [h.not_isSpace]),
      if_pos (by simpa using startsComment_append h.1)]
    simp only [h.takeWhile_append hr, List.drop_left, List.length_cons, Nat.add_assoc,
      Nat.add_comm 1]

/-- The comments of a gap end in front of a newline in it. -/
theorem commentsFrom_gap {g : Text} (h : Gap g) (t : Text) (pos : Nat) :
    ∃ cs, commentsFrom pos (g ++ t) = cs ++ commentsFrom (pos + g.length) t
      ∧ ∀ c ∈ cs, c.2 < pos + g.length := by
  induction h generalizing pos with
  | nil => exact ⟨[], rfl, by simp⟩
  | @space c g hc _ ih =>
    obtain ⟨cs, hcs, hlt⟩ := ih (pos + 1)
    have hlen : pos + 1 + g.length = pos + (c :: g).length := by
      simp only [List.length_cons]
      omega
    rw [hlen] at hcs hlt
    refine ⟨cs, ?_, hlt⟩
    rw [List.cons_append, commentsFrom, if_pos hc, hcs]
  | @comment u g hu _ ih =>
    obtain ⟨cs, hcs, hlt⟩ := ih (pos + u.length)
    have hlen : pos + u.length + ('\n' :: g).length = pos + (u ++ '\n' :: g).length := by
      simp only [List.length_append]
      omega
    rw [hlen] at hcs hlt
    refine ⟨(pos, pos + u.length) :: cs, ?_, fun c hc => ?_⟩
    · rw [List.append_assoc, commentsFrom_comment hu (by simp), hcs]
      rfl
    · rcases List.mem_cons.1 hc with rfl | hc
      · simp
      · exact hlt c hc

theorem commentsFrom_blank {g : Text} (h : ∀ c ∈ g, isSpace c = true) (t : Text) (pos : Nat) :
    commentsFrom pos (g ++ t) = commentsFrom (pos + g.length) t := by
  induction g generalizing pos with
  | nil => rfl
  | cons c g ih =>
    rw [List.cons_append, commentsFrom, if_pos (h c List.mem_cons_self),
      ih fun d hd => h d (List.mem_cons_of_mem _ hd), List.length_cons]
    congr 1
    omega

/-- A lexeme has no comment in it. -/
theorem commentsFrom_reads {l : Lexeme} {t : Text} (h : Reads l t) (pos : Nat) :
    commentsFrom pos (l.text ++ t) = commentsFrom (pos + l.text.length) t := by
  obtain ⟨c, u, hl, hs, hc, hn⟩ := h
  rw [hl, List.cons_append, commentsFrom, if_neg (by simp [hs]), if_neg (by simp [hc]), hn]
  simp only [List.drop_left, List.length_cons]
  congr 1
  omega

theorem commentsFrom_spell {ws : List Word} {t : Text} (h : Legible ws t) (pos : Nat) :
    ∃ cs, commentsFrom pos (spell ws ++ t) = cs ++ commentsFrom (pos + (spell ws).length) t
      ∧ ∀ c ∈ cs, c.2 < pos + (spell ws).length := by
  induction ws generalizing pos with
  | nil => exact ⟨[], rfl, by simp⟩
  | cons w ws ih =>
    obtain ⟨hg, hr, hl⟩ := h
    obtain ⟨cs, hcs, hlt⟩ := commentsFrom_gap hg (w.lexeme.text ++ (spell ws ++ t)) pos
    obtain ⟨ds, hds, hlt'⟩ := ih hl (pos + w.gap.length + w.lexeme.text.length)
    have hlen : pos + w.gap.length + w.lexeme.text.length + (spell ws).length
        = pos + (spell (w :: ws)).length := by
      simp only [spell_cons, List.length_append]
      omega
    have htext : spell (w :: ws) ++ t = w.gap ++ (w.lexeme.text ++ (spell ws ++ t)) := by simp
    rw [hlen] at hds hlt'
    refine ⟨cs ++ ds, ?_, fun c hc => ?_⟩
    · rw [htext, hcs, commentsFrom_reads hr, hds, List.append_assoc]
    · rcases List.mem_append.1 hc with hc | hc
      · have := hlt c hc
        omega
      · exact hlt' c hc

/-- A point between words, behind a gap and in front of blanks, lies in no comment. -/
theorem outside_comments {ws : List Word} {g₁ g₂ t : Text} {l : Lexeme}
    (hl : Legible ws (g₁ ++ (g₂ ++ (l.text ++ t)))) (hg : Gap g₁)
    (hb : ∀ c ∈ g₂, isSpace c = true) (hr : Reads l t) :
    ∀ c ∈ commentsFrom 0 (spell ws ++ (g₁ ++ (g₂ ++ (l.text ++ t)))),
      c.2 < (spell ws ++ g₁).length ∨ (spell ws ++ g₁).length < c.1 := by
  intro c hc
  obtain ⟨cs, hcs, hlt⟩ := commentsFrom_spell hl 0
  obtain ⟨ds, hds, hlt'⟩ :=
    commentsFrom_gap hg (g₂ ++ (l.text ++ t)) (0 + (spell ws).length)
  have hpos := List.length_pos_of_ne_nil hr.ne_nil
  rw [hcs, hds, commentsFrom_blank hb, commentsFrom_reads hr, List.mem_append,
    List.mem_append] at hc
  rw [List.length_append]
  rcases hc with hc | hc | hc
  · have := hlt c hc
    omega
  · have := hlt' c hc
    omega
  · have := le_of_mem_commentsFrom hc
    omega

end Lexer

/-- The comments of a source. -/
def Text.comments (source : Text) : List (Nat × Nat) :=
  Lexer.commentsFrom 0 source

/-! ## Ends of blocks -/

/-- Whether an offset is at the end of the block between two braces: behind the token in front of
the closing brace and outside of every comment, with only indentation between it and that brace, and
at the brace or at the start of its line. -/
structure EndsBlock (source : Text) (opening closing : Node) (offset : Nat) : Prop where
  behind : opening.stop ≤ offset
  before : offset ≤ closing.start
  token : ∃ front last brace back, source.scan = .ok (front ++ last :: brace :: back)
    ∧ brace.start = closing.start ∧ last.stop ≤ offset
  indentation : ∀ c ∈ source.slice offset closing.start, c = ' ' ∨ c = '\t'
  comments : ∀ c ∈ source.comments, c.2 < offset ∨ offset < c.1
  line : offset ≠ closing.start → offset = source.lineStart closing.start

/-- The tokens of a word that has words in front of it and of the last of these. -/
theorem Lexer.exists_neighbours {ws back : List Word} {w : Word} {tail : Text} (hne : ws ≠ [])
    (hl : Legible (ws ++ w :: back) tail) (ht : Trailing tail) :
    ∃ front last token rest,
      (spell (ws ++ w :: back) ++ tail).scan = .ok (front ++ last :: token :: rest)
      ∧ token.start = (spell ws ++ w.gap).length ∧ last.stop = (spell ws).length := by
  obtain ⟨init, v, rfl⟩ := (List.eq_nil_or_concat ws).resolve_left hne
  rw [List.concat_eq_append] at hl ⊢
  have htokens : tokensFrom 0 ((init ++ [v]) ++ w :: back)
      = tokensFrom 0 init ++ ⟨v.lexeme, (spell init ++ v.gap).length⟩
        :: ⟨w.lexeme, (spell (init ++ [v]) ++ w.gap).length⟩
        :: tokensFrom (spell (init ++ [v, w])).length back := by
    simp [tokensFrom_append, tokensFrom, Word.text, Nat.add_assoc]
  refine ⟨_, _, _, _, (scanFrom_spell hl ht 0).trans (congrArg _ htokens), rfl, ?_⟩
  simp [Token.stop, Nat.add_assoc]

namespace Phrase

theorem Group.child_opening (g : Group) (before next : Text) :
    ∃ n, (g.node before next).firstChild? .openBrace = some n
      ∧ n.stop = (before ++ spell [g.opening]).length := by
  have hchild : (g.node before next).children = nodesAll before next
      ([] ++ .node .openBrace .own [.word g.opening] ::
        (g.inside.map .word ++ [.leaf .closeBrace g.closing])) := rfl
  rw [child_nodesAll hchild (by simp [kinds])]
  exact ⟨_, rfl, by simp [nodeOver]⟩

/-- The point at which code goes into a block, by the words of the block. -/
theorem Group.insertionPoint_eq {g : Group} (h : g.Valid .brace) {source before after : Text}
    (hs : source = before ++ spell g.words ++ after) :
    source.insertionPoint (g.upto before).length
      = (before ++ spell [g.opening] ++ g.mid.take (g.cut before)).length := by
  obtain ⟨n, hn, hstart⟩ := g.child_brace before []
  have hsites := Group.sites h hs 1 [] (Context.root (g.node before []))
  have hoffsets := offsets_bodySites (fun _ => []) hsites
  rw [firstChild?_of_child hn, Option.toList_some, List.map_singleton, hstart] at hoffsets
  simpa [segments, Segment.sitesAll, Segment.sites, offsets, Site.cut?, Segment.text]
    using hoffsets.symm

/-- What is between the point at which code goes into a block and the brace that closes it. -/
theorem Group.drop_cut_indents {g : Group} (h : g.Valid .brace) (before : Text) :
    ∀ c ∈ g.mid.drop (g.cut before), c = ' ' ∨ c = '\t' := by
  intro c hc
  by_cases ha : g.Alone before
  · obtain ⟨-, -, hdrop⟩ := Group.take_cut h ha
    rw [hdrop] at hc
    simpa [Text.indents] using List.all_eq_true.1 ha c hc
  · rw [cut, if_neg ha, List.drop_length] at hc
    cases hc

/-- The point at which code goes into a block is at its end. -/
theorem Group.endsBlock {g : Group} (h : g.Valid .brace) {front back : List Word}
    {source tail : Text} (hs : source = spell (front ++ g.words ++ back) ++ tail)
    (hl : Legible (front ++ g.words ++ back) tail) (ht : Trailing tail) (next : Text) :
    ∃ opening closing, (g.node (spell front) next).firstChild? .openBrace = some opening
      ∧ (g.node (spell front) next).firstChild? .closeBrace = some closing
      ∧ EndsBlock source opening closing (source.insertionPoint closing.start) := by
  obtain ⟨opening, hopening, hstop⟩ := g.child_opening (spell front) next
  obtain ⟨closing, hclosing, hstart⟩ := g.child_brace (spell front) next
  rw [List.append_assoc] at hl
  have hgroup := (legible_append.1 (legible_append.1 hl).2).1
  obtain ⟨g₁, g₂, hsplit, hg₁, hg₂, htake, hdrop⟩ := Group.exists_cut h hgroup (spell front)
  have hindents := g.drop_cut_indents h (spell front)
  rw [hdrop] at hindents
  -- The words in front of the closing brace, and the gap up to it.
  have hwords : front ++ (g.words ++ back)
      = (front ++ g.opening :: g.inside) ++ g.closing :: back := by simp [Group.words]
  rw [hwords] at hl
  have hread := (legible_append.1 hl).2.2.1
  have hbefore := (legible_append.1 hl).1
  have htext : source = spell (front ++ g.opening :: g.inside)
      ++ (g₁ ++ (g₂ ++ (g.closing.lexeme.text ++ (spell back ++ tail)))) := by
    rw [hs, List.append_assoc front, hwords]
    simp [hsplit]
  have hpoint : source.insertionPoint closing.start
      = (spell (front ++ g.opening :: g.inside) ++ g₁).length := by
    rw [hstart, Group.insertionPoint_eq h (show source = spell front ++ spell g.words
      ++ (spell back ++ tail) by simp [hs]), htake]
    simp
  have hbrace : closing.start
      = (spell (front ++ g.opening :: g.inside) ++ g₁).length + g₂.length := by
    rw [hstart, upto, mid, hsplit]
    simp [Nat.add_assoc]
  refine ⟨opening, closing, hopening, firstChild?_of_child hclosing, ?_, by omega, ?_, ?_, ?_, ?_⟩
  · rw [hpoint, hstop]
    simp
  · obtain ⟨init, last, brace, rest, hscan, hbrace', hlast⟩ :=
      exists_neighbours (by simp) hl ht
    refine ⟨init, last, brace, rest, ?_, ?_, ?_⟩
    · rw [hs, List.append_assoc front, hwords, hscan]
    · rw [hbrace', hbrace, hsplit]
      simp [Nat.add_assoc]
    · rw [hpoint, hlast]
      simp
  · rw [hpoint, hbrace, htext, Text.slice, ← List.append_assoc, List.drop_left,
      Nat.add_sub_cancel_left, List.take_left]
    exact hindents
  · rw [hpoint, Text.comments, htext]
    refine outside_comments (by simpa [hsplit] using hbefore) hg₁ (fun c hc => ?_) hread
    rcases hindents c hc with rfl | rfl <;> rfl
  · unfold Text.insertionPoint
    split
    · exact fun _ => rfl
    · exact fun hne => absurd rfl hne

end Phrase

/-- The end of the block of a resource. -/
theorem Tree.exists_endsBlock {source : Text} {tree : Tree} (h : Tree.parse source = .ok tree)
    {v : Node × Node} (hv : v ∈ tree.visits) {body : Node}
    (hb : v.2.firstChild? .functionBodyBlock = some body) :
    ∃ opening closing, body.firstChild? .openBrace = some opening
      ∧ body.firstChild? .closeBrace = some closing
      ∧ EndsBlock source opening closing (source.insertionPoint closing.start) := by
  obtain ⟨pre, d, post, tail, hs, hl, ht, hd, hnode⟩ := Tree.exists_definition h hv
  rw [hnode, d.child_block] at hb
  split at hb
  · rename_i g hg
    cases hb
    have hvalid : g.Valid .brace := by
      have := hd.function.body
      rwa [hg] at this
    have hwords : pre ++ d.words ++ post
        = (pre ++ (d.front ++ d.function.signature.words)) ++ g.words ++ post := by
      simp [d.words_eq, hg, Body.words]
    rw [hwords] at hs hl
    have hends := Group.endsBlock hvalid hs hl ht (gapBefore tail post)
    rwa [spell_append pre] at hends
  · cases hb

/-! ## Questions and edits by number -/

theorem exists_getElem?_of_forall₂ {α β : Type} {R : α → β → Prop} {as : List α} {bs : List β}
    (h : List.Forall₂ R as bs) {k : Nat} {a : α} (ha : as[k]? = some a) :
    ∃ b, bs[k]? = some b ∧ R a b := by
  induction h generalizing k with
  | nil => cases ha
  | @cons c d as bs hcd _ ih =>
    cases k with
    | zero =>
      cases ha
      exact ⟨d, rfl, hcd⟩
    | succ k => exact ih ha

namespace Patch

variable {source : Text} {tree : Tree}

/-- The two questions about the block of a resource stand one behind the other. -/
theorem exists_block_questions (h : Tree.parse source = .ok tree) (width : Nat) {v : Node × Node}
    (hv : v ∈ tree.visits) {body : Node} (hb : v.2.firstChild? .functionBodyBlock = some body) :
    ∃ sites k ctx level, Patch.sites tree width = .ok sites
      ∧ (∀ site ∈ sites, site.Placed source)
      ∧ (sites.flatMap Site.requests)[k]? = some (.record ctx level)
      ∧ (sites.flatMap Site.requests)[k + 1]? = some (.block ctx level)
      ∧ ctx.resource? = some v.2 ∧ ctx.node = body := by
  obtain ⟨groups, hsites, hasked, hplaced⟩ := exists_asked h width
  obtain ⟨ss, hss, signature, ctx, returned, embedded, -, -, hcalls, -, hbody⟩ :=
    exists_right_of_forall₂ hasked hv
  rw [AskedBody, hb] at hbody
  obtain ⟨ctx', level, hinside, hnode, rfl⟩ := hbody
  obtain ⟨gs, gs', rfl⟩ := List.append_of_mem hss
  have hsplit : (gs ++ ss :: gs').flatten.flatMap Site.requests
      = (gs.flatten.flatMap Site.requests ++ .params signature ctx :: returned)
        ++ .record ctx' level :: .block ctx' level :: gs'.flatten.flatMap Site.requests := by
    simp [hcalls]
  refine ⟨_, (gs.flatten.flatMap Site.requests ++ .params signature ctx :: returned).length, ctx',
    level, hsites, hplaced, ?_, ?_, hinside.resource, hnode⟩
  · rw [hsplit, List.getElem?_append_right (Nat.le_refl _), Nat.sub_self]
    rfl
  · rw [hsplit, List.getElem?_append_right (Nat.le_add_right _ 1), Nat.add_sub_cancel_left]
    rfl

/-- Both insertions into the block of a resource go to one offset, and that is at its end. -/
theorem block_insertions (h : Tree.parse source = .ok tree) {width : Int} {resource body : Node}
    (hr : resource ∈ tree.root.walk) (hk : resource.kind = .resourceAccessorDefinition)
    (hb : resource.firstChild? .functionBodyBlock = some body) :
    ∃ (requests : List Request) (k : Nat) (ctx : Context) (level : Nat) (opening closing : Node)
        (offset : Nat),
      Patch.requests tree width.toNat = .ok requests
      ∧ requests[k]? = some (.record ctx level) ∧ requests[k + 1]? = some (.block ctx level)
      ∧ ctx.resource? = some resource ∧ ctx.node = body
      ∧ body.firstChild? .openBrace = some opening
      ∧ body.firstChild? .closeBrace = some closing
      ∧ EndsBlock source opening closing offset
      ∧ ∀ (g : Generator) (es : List Edit), Patch.edits tree g width = .ok es →
        ∃ lead record block, g.record ctx level = .ok record ∧ g.block ctx level = .ok block
          ∧ es[k + 1]? = some (Edit.insert offset (lead ++ record))
          ∧ es[k + 2]? = some (Edit.insert offset block) := by
  obtain ⟨v, hv, rfl⟩ : ∃ v ∈ tree.visits, v.2 = resource := by
    refine List.mem_map.1 ?_
    rw [Tree.map_snd_visits h, List.mem_filter]
    exact ⟨hr, by simpa using hk⟩
  obtain ⟨sites, k, ctx, level, hsites, hplaced, hrecord, hblock, hctx, rfl⟩ :=
    exists_block_questions h width.toNat hv hb
  obtain ⟨opening, closing, hopening, hclosing, hends⟩ := Tree.exists_endsBlock h hv hb
  refine ⟨sites.flatMap Site.requests ++ [.imports (Context.root tree.root)], k, ctx, level,
    opening, closing, _, ?_, ?_, ?_, hctx, rfl, hopening, hclosing, hends, fun g es hes => ?_⟩
  · rw [Patch.requests, hsites]
    rfl
  · rw [List.getElem?_append_left (List.getElem?_eq_some_iff.1 hrecord).1, hrecord]
  · rw [List.getElem?_append_left (List.getElem?_eq_some_iff.1 hblock).1, hblock]
  · obtain ⟨imports, rest, -, rfl, hanswers⟩ := exists_answers hsites hplaced hes
    obtain ⟨e, he, hanswer⟩ := exists_getElem?_of_forall₂ hanswers hrecord
    obtain ⟨e', he', hanswer'⟩ := exists_getElem?_of_forall₂ hanswers hblock
    cases hanswer with
    | @record _ _ brace lead text hbrace _ htext =>
      cases hanswer' with
      | @block _ _ brace' text' hbrace' htext' =>
        rw [hclosing] at hbrace hbrace'
        cases hbrace
        cases hbrace'
        exact ⟨lead, text, text', htext, htext', he, he'⟩

/-- A template that closes a brace and a comment that does so do not end the block. -/
theorem block_insertions_commented :
    let source : Text := ("service / on x \x7b\n  resource function get a() \x7b\n"
      ++ "    f(\x60\n\x7d\x60); // \x7d\n\t \x7d\n\x7d\n").toList
    let g := Generator.constant "" "" "" "    r();\n" "    b();\n"
    ∃ (tree : Tree) (resource body opening closing : Node) (offset k : Nat) (es : List Edit)
        (lead record block : Text),
      Tree.parse source = .ok tree ∧ resource ∈ tree.root.walk
      ∧ resource.kind = .resourceAccessorDefinition
      ∧ resource.firstChild? .functionBodyBlock = some body
      ∧ body.firstChild? .openBrace = some opening
      ∧ body.firstChild? .closeBrace = some closing ∧ Patch.edits tree g 4 = .ok es
      ∧ EndsBlock source opening closing offset
      ∧ es[k + 1]? = some (Edit.insert offset (lead ++ record))
      ∧ es[k + 2]? = some (Edit.insert offset block) := by
  intro source g
  have hrun : ((Tree.parse source).toOption.any fun tree =>
      (tree.root.walk.find? (·.kind = .resourceAccessorDefinition)).any fun resource =>
        (resource.firstChild? .functionBodyBlock).isSome
        && (Patch.edits tree g 4).toOption.any fun _ => true) = true := by
    simp only [source]
    rw [String.toList_append, String.toList_ofList, String.toList_ofList]
    decide +kernel
  obtain ⟨tree, hparse, hrun⟩ := exists_of_any hrun
  obtain ⟨resource, hresource, hrun⟩ := (Option.any_eq_true _ _).1 hrun
  rw [Bool.and_eq_true] at hrun
  obtain ⟨body, hbody⟩ := Option.isSome_iff_exists.1 hrun.1
  obtain ⟨es, hes, -⟩ := exists_of_any hrun.2
  have hmem := List.mem_of_find?_eq_some hresource
  have hkind : resource.kind = .resourceAccessorDefinition := by
    simpa using List.find?_some hresource
  obtain ⟨-, k, ctx, level, opening, closing, offset, -, -, -, -, -, hopening, hclosing, hends,
    hedits⟩ := block_insertions hparse hmem hkind hbody
  obtain ⟨lead, record, block, -, -, hrecord, hblock⟩ := hedits g es hes
  exact ⟨tree, resource, body, opening, closing, offset, k, es, lead, record, block, hparse, hmem,
    hkind, hbody, hopening, hclosing, hes, hends, hrecord, hblock⟩

end Patch

end BalMediation
