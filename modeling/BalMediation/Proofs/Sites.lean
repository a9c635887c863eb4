import BalMediation.Proofs.Segments

/-!
# Where the sites of a source are

The segments of signatures and blocks, by the words that they spell. The sites that are found at
their nodes are those of the segments (`Signature.sites`, `Group.sites`).

The brace that closes a block never stands on a line that begins before the block does: an opening
brace is no blank, so the line up to the closing brace is blank only if it begins behind it
(`exists_line`).
-/

namespace BalMediation

/-! ## Lines -/

namespace Text

/-- The part of a text behind its last newline. -/
def lastLine (t : Text) : Text :=
  (t.reverse.takeWhile (· != '\n')).reverse

/-- Whether a character indents a line. -/
def indents (c : Char) : Bool :=
  c == ' ' || c == '\t'

theorem exists_lastLine (t : Text) :
    ∃ front, t = front ++ lastLine t ∧ (front = [] ∨ ∃ f, front = f ++ ['\n']) := by
  refine ⟨(t.reverse.dropWhile (· != '\n')).reverse, ?_, ?_⟩
  · rw [lastLine, ← List.reverse_append, List.takeWhile_append_dropWhile, List.reverse_reverse]
  · cases hd : t.reverse.dropWhile (· != '\n') with
    | nil => exact .inl rfl
    | cons c r =>
      have hc := List.head?_dropWhile_not (· != '\n') t.reverse
      rw [hd] at hc
      have hc : c = '\n' := by simpa using hc
      exact .inr ⟨r.reverse, by simp [hc]⟩

theorem lineStart_append (t u : Text) :
    (t ++ u).lineStart t.length = t.length - (lastLine t).length := by
  simp [lineStart, lastLine]

theorem takeWhile_indents {c : Char} (hc : indents c = false) (l u : Text) :
    (l ++ c :: u).takeWhile indents = l.takeWhile indents := by
  induction l with
  | nil => simp [hc]
  | cons d l ih => rw [List.cons_append, List.takeWhile_cons, List.takeWhile_cons, ih]

/-- In front of a character that does not indent, the indentation is that of the line so far. -/
theorem lineIndent_append {c : Char} (hc : indents c = false) (t u : Text) :
    (t ++ c :: u).lineIndent t.length = ((lastLine t).takeWhile indents).length := by
  obtain ⟨front, hfront, -⟩ := exists_lastLine t
  have hlen := congrArg List.length hfront
  rw [List.length_append] at hlen
  have hstart : (t ++ c :: u).lineStart t.length = front.length := by
    rw [lineStart_append]
    omega
  have hdrop : (t ++ c :: u).drop front.length = lastLine t ++ c :: u := by
    nth_rewrite 1 [hfront]
    rw [List.append_assoc, List.drop_left]
  rw [lineIndent, hstart, hdrop]
  exact congrArg List.length (takeWhile_indents hc _ _)

/-- A line is indentation up to a character that does not indent, or only up to a point before. -/
theorem lineStart_add_lineIndent {c : Char} (hc : indents c = false) (t u : Text) :
    (t ++ c :: u).lineStart t.length + (t ++ c :: u).lineIndent t.length = t.length
      ↔ (lastLine t).all indents = true := by
  obtain ⟨front, hfront, -⟩ := exists_lastLine t
  have hlen := congrArg List.length hfront
  rw [List.length_append] at hlen
  rw [lineStart_append, lineIndent_append hc]
  constructor
  · intro h
    have heq : (lastLine t).takeWhile indents = lastLine t :=
      (List.takeWhile_prefix _).eq_of_length (by omega)
    rw [← heq]
    exact List.all_takeWhile
  · intro h
    have heq : (lastLine t ++ []).takeWhile indents = lastLine t ++ [].takeWhile indents :=
      List.takeWhile_append_of_pos (List.all_eq_true.1 h)
    rw [List.append_nil, List.takeWhile_nil, List.append_nil] at heq
    rw [heq]
    omega

end Text

namespace Branch

/-- The kinds of the nodes of branches. -/
def kinds : List Branch → List Kind
  | [] => []
  | word _ :: bs => kinds bs
  | node kind _ _ :: bs => kind :: kinds bs

theorem map_kind_nodesAll (before next : Text) (bs : List Branch) :
    (nodesAll before next bs).map (·.kind) = kinds bs := by
  induction bs generalizing before with
  | nil => simp [kinds]
  | cons b bs ih => cases b <;> simp [kinds, ih, nodeOver]

@[simp] theorem kinds_append (as bs : List Branch) : kinds (as ++ bs) = kinds as ++ kinds bs := by
  induction as with
  | nil => rfl
  | cons a as ih => cases a <;> simp [kinds, ih]

@[simp] theorem kinds_words (ws : List Word) : kinds (ws.map word) = [] := by
  induction ws with
  | nil => rfl
  | cons w ws ih => simpa [kinds] using ih

theorem kind_mem_kinds {before next : Text} {bs : List Branch} {n : Node}
    (h : n ∈ nodesAll before next bs) : n.kind ∈ kinds bs := by
  rw [← map_kind_nodesAll before next]
  exact List.mem_map_of_mem h

theorem find?_nodesAll {before next : Text} {bs : List Branch} {kind : Kind}
    (h : kind ∉ kinds bs) : (nodesAll before next bs).find? (·.kind = kind) = none := by
  rw [List.find?_eq_none]
  intro n hn
  simp only [decide_eq_true_eq]
  rintro rfl
  exact h (kind_mem_kinds hn)

theorem filter_nodesAll_of_forall_not_mem {before next : Text} {bs : List Branch} {ks : List Kind}
    (h : ∀ kind ∈ kinds bs, kind ∉ ks) :
    (nodesAll before next bs).filter (fun n => ks.contains n.kind) = [] := by
  rw [List.filter_eq_nil_iff]
  intro n hn
  simpa using h _ (kind_mem_kinds hn)

theorem filter_nodesAll {before next : Text} {bs : List Branch} {kind : Kind}
    (h : kind ∉ kinds bs) :
    (nodesAll before next bs).filter (fun n => [kind].contains n.kind) = [] := by
  refine filter_nodesAll_of_forall_not_mem fun k hk hin => h ?_
  rwa [← List.mem_singleton.1 hin]

/-- The first child of a kind is found behind branches of other kinds. -/
theorem child_nodesAll {n : Node} {a b c : List Branch} {kind : Kind} {label : Label}
    {before next : Text} (hn : n.children = nodesAll before next (a ++ node kind label b :: c))
    (h : kind ∉ kinds a) :
    n.firstChild? kind
      = some (nodeOver (before ++ spell (wordsAll a)) (gapBefore next (wordsAll c)) kind label
          (wordsAll b)
          (nodesAll (before ++ spell (wordsAll a)) (gapBefore next (wordsAll c)) b)) := by
  rw [Node.firstChild?, hn, nodesAll_append, List.find?_append, find?_nodesAll h]
  simp [nodeOver]

theorem child_nodesAll_none {n : Node} {a : List Branch} {kind : Kind} {before next : Text}
    (hn : n.children = nodesAll before next a) (h : kind ∉ kinds a) :
    n.firstChild? kind = none := by
  rw [Node.firstChild?, hn, find?_nodesAll h]

end Branch

namespace Phrase

open Branch Segment

/-! ## Signatures -/

theorem kinds_attachments (as : List Attachment) :
    kinds (as.map Attachment.branch) = as.map fun _ => .annotationAttachment := by
  induction as with
  | nil => rfl
  | cons a as ih => simp [kinds, Attachment.branch, span, ih]

theorem kinds_parameterBranches (depth : Nat) (run ws : List Word) :
    ∀ kind ∈ kinds (parameterBranches depth run ws), kind = .parameter := by
  have hrun : ∀ (r : List Word) (kind : Kind),
      kind ∈ kinds (if r.isEmpty then [] else [.span .parameter r]) → kind = .parameter := by
    intro r kind hk
    cases r with
    | nil => simp [kinds] at hk
    | cons w r => simpa [kinds, span] using hk
  induction ws generalizing depth run with
  | nil => exact hrun run
  | cons w ws ih =>
    rw [parameterBranches]
    split
    · intro kind hk
      rw [kinds_append, List.mem_append] at hk
      rcases hk with hk | hk
      · exact hrun run kind hk
      · exact ih 0 [] kind hk
    · exact ih _ _

/-- The node of the type behind `returns`. -/
def Returns.typeNode (r : Returns) (before next : Text) : Node :=
  nodeOver (before ++ spell (r.keyword :: r.annotations.flatMap Attachment.words)) next
    .typeDescriptor .own r.type []

/-- The node of a return type. -/
def Returns.node (r : Returns) (before next : Text) : Node :=
  nodeOver before next .returnTypeDescriptor .none r.words (nodesAll before next
    (.leaf .keyword r.keyword :: (r.annotations.map Attachment.branch
      ++ [.span .typeDescriptor r.type])))

theorem Returns.child_type (r : Returns) (before next : Text) :
    Patch.child (r.node before next) .typeDescriptor = .ok (r.typeNode before next) := by
  have hfront : Kind.typeDescriptor ∉ kinds (.leaf .keyword r.keyword ::
      r.annotations.map Attachment.branch) := by
    simp [leaf, kinds, kinds_attachments]
  have hchild : (r.node before next).children = nodesAll before next
      ((.leaf .keyword r.keyword :: r.annotations.map Attachment.branch)
        ++ .node .typeDescriptor .own (r.type.map word) :: []) := rfl
  rw [Patch.child, child_nodesAll hchild hfront]
  simp [typeNode]

/-- The node of a signature. -/
def Signature.node (s : Signature) (before next : Text) : Node :=
  nodeOver before next .functionSignature .none s.words (nodesAll before next
    (paramsBranches s.params ++ s.returns.toList.map Returns.branch))

/-- The segments of a signature. -/
def Signature.segments (s : Signature) (before next : Text) (ctx : Context) : List Segment :=
  [.kept (spell [s.params.opening]), .params (s.node before next) ctx]
    ++ match s.returns with
      | none => [.kept (spell (s.params.inside ++ [s.params.closing]))]
      | some r =>
        [.kept (spell (s.params.inside ++ [s.params.closing] ++ r.keyword ::
            r.annotations.flatMap Attachment.words) ++ gapBefore next r.type),
          .returnType (r.typeNode (before ++ spell s.params.words) next) ctx (caption r.type)]

theorem Signature.child_paren (s : Signature) (before next : Text) :
    ∃ n, Patch.child (s.node before next) .openParen = .ok n
      ∧ n.stop = (before ++ spell [s.params.opening]).length := by
  have hchild : (s.node before next).children = nodesAll before next
      ([] ++ .node .openParen .own [.word s.params.opening] ::
        (parameterBranches 0 [] s.params.inside ++ [.leaf .closeParen s.params.closing]
          ++ s.returns.toList.map Returns.branch)) := rfl
  rw [Patch.child, child_nodesAll hchild (by simp [kinds])]
  exact ⟨_, rfl, by simp [nodeOver]⟩

theorem Signature.child_returns (s : Signature) (before next : Text) :
    (s.node before next).firstChild? .returnTypeDescriptor
      = s.returns.map fun r => r.node (before ++ spell s.params.words) next := by
  have hfront : Kind.returnTypeDescriptor ∉ kinds (paramsBranches s.params) := by
    have hparams := kinds_parameterBranches 0 [] s.params.inside
    simp only [paramsBranches, leaf, kinds, kinds_append, List.mem_cons, List.mem_append,
      List.not_mem_nil, or_false, reduceCtorEq, false_or]
    intro hk
    cases hparams _ hk
  obtain ⟨params, returns⟩ := s
  cases returns with
  | none => exact child_nodesAll_none rfl (by simpa using hfront)
  | some r =>
    have hchild : (Signature.node ⟨params, some r⟩ before next).children = nodesAll before next
        (paramsBranches params ++ r.branch :: []) := rfl
    rw [child_nodesAll hchild hfront]
    simp [Returns.node, Returns.words]

theorem Signature.sites (s : Signature) (before next : Text) (ctx : Context) :
    Patch.signatureSites (s.node before next) ctx
      = .ok (sitesAll before.length (s.segments before next ctx)) := by
  obtain ⟨n, hn, hstop⟩ := s.child_paren before next
  have hreturns := s.child_returns before next
  unfold Patch.signatureSites
  rw [hn, hreturns]
  obtain ⟨params, returns⟩ := s
  cases returns with
  | none =>
    simp [bind, Except.bind, pure, Except.pure, hstop, segments, sitesAll, Segment.sites, text]
  | some r =>
    have htype := r.child_type (before ++ spell params.words) next
    simp [bind, Except.bind, pure, Except.pure, hstop, segments, sitesAll, Segment.sites, text,
      htype]

theorem Signature.textAll_segments {s : Signature} {rest : List Lexeme} (h : s.Valid rest)
    (before next : Text) (ctx : Context) :
    textAll (s.segments before next ctx) = spell s.words := by
  obtain ⟨params, returns⟩ := s
  cases returns with
  | none => simp [segments, text, words, returnsWords, Group.words]
  | some r =>
    have hr : r.Valid rest := h.returns
    have htype := gapBefore_caption hr.ne_nil next
    simp [segments, text, words, returnsWords, Group.words, Returns.words, ← htype]

theorem Signature.fitAll_segments {s : Signature} {rest : List Lexeme} (h : s.Valid rest)
    (before next : Text) (ctx : Context) :
    FitAll before.length (s.segments before next ctx) := by
  obtain ⟨params, returns⟩ := s
  cases returns with
  | none => simp [segments, FitAll, Fits]
  | some r =>
    have hr : r.Valid rest := h.returns
    have htype := gapBefore_caption hr.ne_nil next
    refine ⟨trivial, trivial, trivial, ⟨?_, ?_, rfl⟩, trivial⟩
    · simp [Returns.typeNode, nodeOver, text, Group.words, Nat.add_assoc]
    · simp [Returns.typeNode, nodeOver, text, Group.words, Nat.add_assoc, ← htype]

/-! ## Bodies -/

/-- The node of a block. -/
def Group.node (g : Group) (before next : Text) : Node :=
  nodeOver before next .functionBodyBlock .none g.words (nodesAll before next
    (.leaf .openBrace g.opening :: (g.inside.map .word ++ [.leaf .closeBrace g.closing])))

/-- What stands between the braces of a block. -/
def Group.mid (g : Group) : Text :=
  spell g.inside ++ g.closing.gap

/-- The text up to the brace that closes a block. -/
def Group.upto (g : Group) (before : Text) : Text :=
  before ++ spell [g.opening] ++ g.mid

/-- Whether the brace that closes a block stands first on its line. -/
def Group.Alone (g : Group) (before : Text) : Prop :=
  (Text.lastLine (g.upto before)).all Text.indents = true

instance (g : Group) (before : Text) : Decidable (g.Alone before) :=
  inferInstanceAs (Decidable (_ = true))

/-- How much of what is between the braces stands in front of code that is put there. -/
def Group.cut (g : Group) (before : Text) : Nat :=
  if g.Alone before then g.mid.length - (Text.lastLine (g.upto before)).length else g.mid.length

/-- The level of code that is put into a block of a source that indents by `width`. -/
def Group.level (g : Group) (width : Nat) (before : Text) : Nat :=
  ((Text.lastLine (g.upto before)).takeWhile Text.indents).length / width + 1

/-- The segments of a block. -/
def Group.segments (g : Group) (width : Nat) (before : Text) (ctx : Context) : List Segment :=
  [.kept (spell [g.opening] ++ g.mid.take (g.cut before)),
    .body (!decide (g.Alone before)) (g.level width before) ctx,
    .kept (g.mid.drop (g.cut before) ++ g.closing.lexeme.text)]

theorem Group.child_brace (g : Group) (before next : Text) :
    ∃ n, Patch.child (g.node before next) .closeBrace = .ok n
      ∧ n.start = (g.upto before).length := by
  have hchild : (g.node before next).children = nodesAll before next
      ((.leaf .openBrace g.opening :: g.inside.map .word)
        ++ .node .closeBrace .own [.word g.closing] :: []) := rfl
  rw [Patch.child, child_nodesAll hchild (by simp [leaf, kinds])]
  exact ⟨_, rfl, by simp [nodeOver, upto, mid]⟩

/-- A line that is blank up to the closing brace begins behind the opening brace, with a newline in
front of it. -/
theorem Group.exists_line {g : Group} (h : g.Valid .brace) {before : Text} (ha : g.Alone before) :
    ∃ front, g.mid = front ++ '\n' :: Text.lastLine (g.upto before) := by
  have ho : g.opening.lexeme.text = ['\x7b'] := by
    have := h.opening
    simp only [Lexeme.isOp, Bool.and_eq_true, beq_iff_eq] at this
    exact this.2
  obtain ⟨front, hfront, hnl⟩ := Text.exists_lastLine (g.upto before)
  have hopen : before ++ spell [g.opening] = before ++ g.opening.gap ++ ['\x7b'] := by
    simp [ho]
  have hend : ∀ f : Text, before ++ spell [g.opening] ≠ f ++ ['\n'] := by
    intro f hf
    rw [hopen] at hf
    exact absurd (List.append_inj' hf rfl).2 (by simp)
  rcases List.append_eq_append_iff.1 hfront with ⟨a, hfa, hmid⟩ | ⟨c, hc, hline⟩
  · rcases List.eq_nil_or_concat a with rfl | ⟨f, d, rfl⟩
    · exfalso
      rw [List.append_nil] at hfa
      rcases hnl with rfl | ⟨f, rfl⟩
      · simp [ho] at hfa
      · exact hend f hfa.symm
    · refine ⟨f, ?_⟩
      rcases hnl with rfl | ⟨f', rfl⟩
      · simp at hfa
      · rw [List.concat_eq_append, ← List.append_assoc] at hfa
        obtain rfl : '\n' = d := by simpa using (List.append_inj' hfa rfl).2
        simpa using hmid
  · exfalso
    rcases List.eq_nil_or_concat c with rfl | ⟨f, d, rfl⟩
    · rw [List.append_nil] at hc
      rcases hnl with rfl | ⟨f, rfl⟩
      · simp [ho] at hc
      · exact hend f hc
    · rw [hopen, List.concat_eq_append, ← List.append_assoc] at hc
      obtain rfl : '\x7b' = d := by simpa using (List.append_inj' hc rfl).2
      have := List.all_eq_true.1 ha '\x7b' (by simp [hline])
      exact absurd this (by decide)

theorem Group.take_cut {g : Group} (h : g.Valid .brace) {before : Text} (ha : g.Alone before) :
    ∃ front, g.mid.take (g.cut before) = front ++ ['\n']
      ∧ g.mid.drop (g.cut before) = Text.lastLine (g.upto before) := by
  obtain ⟨front, hmid⟩ := Group.exists_line h ha
  have hcut : g.cut before = (front ++ ['\n']).length := by
    rw [cut, if_pos ha, hmid]
    simp only [List.length_append, List.length_cons, List.length_nil]
    omega
  have hsplit : g.mid = (front ++ ['\n']) ++ Text.lastLine (g.upto before) := by simpa using hmid
  exact ⟨front, by rw [hcut, hsplit, List.take_left], by rw [hcut, hsplit, List.drop_left]⟩

theorem Group.sites {g : Group} (h : g.Valid .brace) {source before after : Text}
    (hs : source = before ++ spell g.words ++ after) (width : Nat) (next : Text) (ctx : Context) :
    Patch.bodySites source width (g.node before next) ctx
      = .ok (sitesAll before.length (g.segments width before ctx)) := by
  obtain ⟨n, hn, hstart⟩ := g.child_brace before next
  have hclose : g.closing.lexeme.text = ['\x7d'] := (Lexeme.closes?_eq_some.1 h.closing).2
  have hsource : source = g.upto before ++ '\x7d' :: after := by
    simp [hs, upto, mid, Group.words, hclose]
  have halone := Text.lineStart_add_lineIndent (c := '\x7d') (by decide) (g.upto before) after
  have hline := Text.lineStart_append (g.upto before) ('\x7d' :: after)
  have hindent := Text.lineIndent_append (c := '\x7d') (by decide) (g.upto before) after
  rw [← hsource] at halone hline hindent
  rw [hindent] at halone
  have hupto : (g.upto before).length
      = before.length + (spell [g.opening]).length + g.mid.length := by
    simp only [upto, List.length_append]
  unfold Patch.bodySites
  rw [hn]
  by_cases ha : g.Alone before
  · obtain ⟨front, htake, hdrop⟩ := Group.take_cut h ha
    have hpos : before.length + (spell [g.opening] ++ g.mid.take (g.cut before)).length
        = source.lineStart (g.upto before).length := by
      have hmid := congrArg List.length (List.take_append_drop (g.cut before) g.mid)
      rw [List.length_append, hdrop] at hmid
      rw [hline, List.length_append]
      omega
    simp only [bind, Except.bind, pure, Except.pure, hstart, segments, sitesAll, Segment.sites,
      text, halone.2 ha, decide_true, if_true, ha, hpos, level, hindent, List.nil_append,
      List.singleton_append]
  · have hcut : g.cut before = g.mid.length := if_neg ha
    have hpos : before.length + (spell [g.opening] ++ g.mid.take (g.cut before)).length
        = (g.upto before).length := by
      rw [hcut, List.take_length, List.length_append, hupto]
      omega
    have hno : ¬ (source.lineStart (g.upto before).length
        + ((Text.lastLine (g.upto before)).takeWhile Text.indents).length
          = (g.upto before).length) := fun he => ha (halone.1 he)
    simp only [bind, Except.bind, pure, Except.pure, hstart, segments, sitesAll, Segment.sites,
      text, hno, decide_false, if_false, ha, hpos, level, hindent, List.nil_append,
      List.singleton_append]

theorem Group.textAll_segments (g : Group) (width : Nat) (before : Text)
    (ctx : Context) : textAll (g.segments width before ctx) = spell g.words := by
  have hmid : g.mid.take (g.cut before) ++ g.mid.drop (g.cut before) = g.mid :=
    List.take_append_drop _ _
  simp only [segments, textAll_cons, text, List.append_assoc, List.nil_append, textAll_nil,
    List.append_nil]
  rw [← List.append_assoc (g.mid.take _), hmid]
  simp [mid, Group.words]

theorem Group.fitAll_segments (g : Group) (width : Nat) (before : Text)
    (ctx : Context) (o : Nat) : FitAll o (g.segments width before ctx) := by
  simp [segments, FitAll, Fits]

end Phrase

end BalMediation
