import BalMediation.Proofs.Sites

/-!
# The plan of a source

The segments of resources, services and modules. The sites that are found in the tree of a source
are those of its segments (`sites_of_items`), and the same holds for every node of the tree taken
as a root of its own (`planned_of_walk`).
-/

namespace BalMediation

open Branch Segment

/-- What `f` finds at the nodes of a kind among branches are the sites of segments. -/
structure Marks (f : Node → Except Error (List Site)) (kind : Kind) (bs : List Branch)
    (before next : Text) (segs : List Segment) : Prop where
  text : textAll segs = spell (wordsAll bs)
  fits : FitAll before.length segs
  sites : ∃ ss, ((nodesAll before next bs).filter fun n => [kind].contains n.kind).mapM f = .ok ss
    ∧ ss.flatten = sitesAll before.length segs

namespace Marks

variable {f : Node → Except Error (List Site)} {kind : Kind} {bs cs : List Branch}
  {before next : Text} {segs segs' : List Segment}

theorem kept {ws : List Word} (h : kind ∉ kinds bs) (hw : wordsAll bs = ws) :
    Marks f kind bs before next [.kept (spell ws)] := by
  subst hw
  refine ⟨by simp [Segment.text], ⟨trivial, trivial⟩, [], ?_, by simp [sitesAll, Segment.sites]⟩
  rw [filter_nodesAll h]
  rfl

theorem append {before' next' : Text} (h : Marks f kind bs before next' segs)
    (h' : Marks f kind cs before' next segs') (hn : next' = gapBefore next (wordsAll cs))
    (hb : before' = before ++ spell (wordsAll bs)) :
    Marks f kind (bs ++ cs) before next (segs ++ segs') := by
  subst hn hb
  obtain ⟨ss, hss, hflat⟩ := h.sites
  obtain ⟨ss', hss', hflat'⟩ := h'.sites
  have hlen : (before ++ spell (wordsAll bs)).length = before.length + (textAll segs).length := by
    rw [List.length_append, h.text]
  refine ⟨?_, ?_, ss ++ ss', ?_, ?_⟩
  · rw [textAll_append, h.text, h'.text, wordsAll_append, spell_append]
  · rw [fitAll_append, ← hlen]
    exact ⟨h.fits, h'.fits⟩
  · rw [nodesAll_append, List.filter_append, List.mapM_append, hss, hss']
    rfl
  · rw [List.flatten_append, hflat, hflat', sitesAll_append, hlen]

theorem node {label : Label} (ht : textAll segs = spell (wordsAll bs))
    (hf : FitAll before.length segs)
    (hs : f (nodeOver before next kind label (wordsAll bs) (nodesAll before next bs))
      = .ok (sitesAll before.length segs)) :
    Marks f kind [.node kind label bs] before next segs := by
  refine ⟨by simpa using ht, hf, [sitesAll before.length segs], ?_, by simp⟩
  rw [nodesAll_cons, nodesAll_nil, List.append_nil, nodes_node, wordsAll_nil, gapBefore_nil,
    List.filter_cons_of_pos (by simp [nodeOver]), List.filter_nil, List.mapM_cons, hs]
  rfl

/-- The sites at the children of a node, one after the other. -/
theorem flatten {n : Node} (h : Marks f kind bs before next segs)
    (hn : n.children = nodesAll before next bs) :
    (do
      let ss ← (n.childrenOf [kind]).mapM f
      return ss.flatten) = .ok (sitesAll before.length segs) := by
  obtain ⟨ss, hss, hflat⟩ := h.sites
  rw [Node.childrenOf, hn, hss, ← hflat]
  rfl

end Marks

namespace Phrase

/-! ## Resources -/

theorem kinds_leaves (kind : Kind) (ws : List Word) :
    kinds (ws.map (.leaf kind)) = ws.map fun _ => kind := by
  induction ws with
  | nil => rfl
  | cons w ws ih => simp [kinds, leaf, ih]

theorem Leading.kinds_branches (h : Leading) :
    ∀ kind ∈ kinds h.branches, kind = .annotationAttachment ∨ kind = .keyword := by
  intro kind hk
  rw [branches, kinds_append, kinds_attachments, kinds_leaves, List.mem_append] at hk
  rcases hk with hk | hk
  · exact .inl (List.eq_of_mem_map_const hk)
  · exact .inr (List.eq_of_mem_map_const hk)

namespace Body

/-- The segments of a body. -/
def segments (width : Nat) (before next : Text) (ctx : Context) : Body → List Segment
  | block g => g.segments width before (ctx.push (g.node before next))
  | b => [.kept (spell b.words)]

theorem textAll_segments (b : Body) (width : Nat) (before next : Text) (ctx : Context) :
    textAll (b.segments width before next ctx) = spell b.words := by
  cases b with
  | block g => exact g.textAll_segments width before _
  | clause sign content semicolon => simp [segments, Segment.text]
  | bare semicolon => simp [segments, Segment.text]

theorem fitAll_segments (b : Body) (width : Nat) (before next : Text) (ctx : Context) (o : Nat) :
    FitAll o (b.segments width before next ctx) := by
  cases b with
  | block g => exact g.fitAll_segments width before _ o
  | clause sign content semicolon => exact ⟨trivial, trivial⟩
  | bare semicolon => exact ⟨trivial, trivial⟩

end Body

namespace Definition

/-- The words in front of the signature. -/
def front (d : Definition) : List Word :=
  d.leading.words ++ d.function.keyword :: d.function.name :: d.function.path

/-- The branches in front of the signature. -/
def frontBranches (d : Definition) : List Branch :=
  d.leading.branches ++ .leaf .keyword d.function.keyword :: .leaf .identifier d.function.name ::
    (if d.function.path.isEmpty then [] else [.span .resourcePath d.function.path])

@[simp] theorem wordsAll_frontBranches (d : Definition) : wordsAll d.frontBranches = d.front := by
  cases hp : d.function.path <;> simp [frontBranches, front, hp]

theorem branches_eq (d : Definition) :
    d.leading.branches ++ d.function.branches
      = d.frontBranches ++ d.function.signature.branch :: d.function.body.branches := by
  simp [frontBranches, Function.branches]

theorem words_eq (d : Definition) :
    d.words = d.front ++ (d.function.signature.words ++ d.function.body.words) := by
  simp [words, front, Function.words]

theorem kinds_frontBranches (d : Definition) : ∀ kind ∈ kinds d.frontBranches,
    kind ∈ [.annotationAttachment, .keyword, .identifier, .resourcePath] := by
  intro kind hk
  rw [frontBranches, kinds_append, List.mem_append] at hk
  rcases hk with hk | hk
  · rcases d.leading.kinds_branches kind hk with rfl | rfl <;> simp
  · split at hk <;> simp only [kinds, leaf, span, List.mem_cons, List.not_mem_nil, or_false] at hk
    · rcases hk with rfl | rfl <;> simp
    · rcases hk with rfl | rfl | rfl <;> simp

/-- The node of a function. -/
def node (kind : Kind) (d : Definition) (before next : Text) : Node :=
  nodeOver before next kind .none d.words
    (nodesAll before next (d.leading.branches ++ d.function.branches))

/-- The segments of a resource. -/
def segments (d : Definition) (width : Nat) (before next : Text) (ctx : Context) : List Segment :=
  let s := d.function.signature
  let b := d.function.body
  let beforeSignature := before ++ spell d.front
  let nextSignature := gapBefore next b.words
  .kept (spell d.front) ::
    (s.segments beforeSignature nextSignature (ctx.push (s.node beforeSignature nextSignature))
      ++ b.segments width (beforeSignature ++ spell s.words) next ctx)

theorem child_signature (d : Definition) (kind : Kind) (before next : Text) :
    (d.node kind before next).firstChild? .functionSignature
      = some (d.function.signature.node (before ++ spell d.front)
          (gapBefore next d.function.body.words)) := by
  have hchild : (d.node kind before next).children = nodesAll before next
      (d.frontBranches ++ .node .functionSignature .none
        (Signature.paramsBranches d.function.signature.params
          ++ d.function.signature.returns.toList.map Returns.branch) ::
        d.function.body.branches) := congrArg _ d.branches_eq
  have hfront : Kind.functionSignature ∉ kinds d.frontBranches := by
    intro hk
    simpa using d.kinds_frontBranches _ hk
  have hwords := d.function.signature.words_branch
  rw [Signature.branch, words_node] at hwords
  rw [child_nodesAll hchild hfront, wordsAll_frontBranches, Body.wordsAll_branches, hwords]
  rfl

theorem child_block (d : Definition) (kind : Kind) (before next : Text) :
    (d.node kind before next).firstChild? .functionBodyBlock
      = match d.function.body with
        | .block g => some (g.node (before ++ spell (d.front ++ d.function.signature.words)) next)
        | _ => none := by
  have hfront : Kind.functionBodyBlock ∉
      kinds (d.frontBranches ++ [d.function.signature.branch]) := by
    rw [kinds_append, List.mem_append]
    rintro (hk | hk)
    · simpa using d.kinds_frontBranches _ hk
    · simp [Signature.branch, kinds] at hk
  have hchild : (d.node kind before next).children = nodesAll before next
      ((d.frontBranches ++ [d.function.signature.branch]) ++ d.function.body.branches) := by
    rw [List.append_assoc]
    exact congrArg _ d.branches_eq
  cases hb : d.function.body with
  | block g =>
    rw [hb, Body.branches] at hchild
    rw [child_nodesAll hchild hfront]
    simp [Group.node, Group.words]
  | clause sign content semicolon =>
    refine child_nodesAll_none hchild ?_
    rw [kinds_append, List.mem_append]
    rintro (hk | hk)
    · exact hfront hk
    · rw [hb, Body.branches, Body.clauseKind] at hk
      split at hk <;> simp [kinds] at hk
  | bare semicolon =>
    refine child_nodesAll_none hchild ?_
    rw [kinds_append, List.mem_append]
    rintro (hk | hk)
    · exact hfront hk
    · simp [hb, Body.branches, kinds] at hk

variable {d : Definition} {allowed : List Text} {kind : Kind}

theorem textAll_segments (h : d.Valid allowed kind) (width : Nat) (before next : Text)
    (ctx : Context) : textAll (d.segments width before next ctx) = spell d.words := by
  rw [segments, textAll_cons, textAll_append, Signature.textAll_segments h.function.signature,
    Body.textAll_segments, words_eq, spell_append, spell_append]
  rfl

theorem fitAll_segments (h : d.Valid allowed kind) (width : Nat) (before next : Text)
    (ctx : Context) : FitAll before.length (d.segments width before next ctx) := by
  have hsig := Signature.fitAll_segments h.function.signature (before ++ spell d.front)
    (gapBefore next d.function.body.words)
  rw [List.length_append] at hsig
  exact ⟨trivial, (fitAll_append _ _ _).2 ⟨hsig _, Body.fitAll_segments _ _ _ _ _ _⟩⟩

theorem sites (h : d.Valid allowed kind) {source before after : Text}
    (hs : source = before ++ spell d.words ++ after) (width : Nat) (next : Text) (ctx : Context) :
    Patch.resourceSites source width (d.node kind before next) ctx
      = .ok (sitesAll before.length (d.segments width before next ctx)) := by
  have hsig := d.function.signature.sites (before ++ spell d.front)
    (gapBefore next d.function.body.words)
  have htext := Signature.textAll_segments h.function.signature (before ++ spell d.front)
    (gapBefore next d.function.body.words)
  have hblock := d.child_block kind before next
  unfold Patch.resourceSites
  rw [d.child_signature, hblock]
  simp only [hsig, segments, sitesAll, Segment.sites, Segment.text, List.nil_append,
    sitesAll_append, htext]
  rw [words_eq, spell_append, spell_append] at hs
  cases hb : d.function.body with
  | block g =>
    have hg : g.Valid .brace := by
      have := h.function.body
      rwa [hb] at this
    rw [hb, Body.words] at hs
    have hgs : source = before ++ spell d.front ++ spell d.function.signature.words
        ++ spell g.words ++ after := by simp [hs]
    have hgs := Group.sites hg hgs width next
    simp only [spell_append, ← List.append_assoc, hgs, bind, Except.bind, pure, Except.pure,
      Body.segments, List.length_append]
  | clause sign content semicolon =>
    simp [bind, Except.bind, pure, Except.pure, Body.segments, sitesAll, Segment.sites]
  | bare semicolon =>
    simp [bind, Except.bind, pure, Except.pure, Body.segments, sitesAll, Segment.sites]

end Definition

/-! ## Services and modules -/

namespace Grammar

variable {M : Type} (G : Grammar M)

/-- The segments of items, given those of members. -/
def segments (seg : M → Text → Text → List Segment) (before next : Text) :
    List (Item M) → List Segment
  | [] => []
  | .semicolon w :: items => .kept (spell [w]) :: segments seg (before ++ spell [w]) next items
  | .member m :: items =>
    seg m before (gapBefore next (G.words items))
      ++ segments seg (before ++ spell (G.branch m).words) next items

variable {G}

theorem marks {f : Node → Except Error (List Site)} {kind : Kind}
    {seg : M → Text → Text → List Segment} {source : Text}
    (hm : ∀ {p : Option Lexeme} {m : M} {rest : List Lexeme} (before next after : Text),
      G.Valid p m rest → source = before ++ spell (G.branch m).words ++ after →
      Marks f kind [G.branch m] before next (seg m before next))
    {items : List (Item M)} {p : Option Lexeme} {rest : List Lexeme} (before next after : Text)
    (h : G.AllValid p items rest) (hs : source = before ++ spell (G.words items) ++ after) :
    Marks f kind (items.map G.itemBranch) before next (G.segments seg before next items) := by
  induction items generalizing p before with
  | nil => exact ⟨by simp [segments], trivial, [], by simp [pure, Except.pure], rfl⟩
  | cons item items ih =>
    cases item with
    | semicolon w =>
      have hw : Marks f kind [.word w] before (gapBefore next (G.words items))
          [.kept (spell [w])] := .kept (by simp [kinds]) (by simp)
      exact hw.append (ih _ h.2 (by simp [hs])) rfl (by simp)
    | member m =>
      have hfirst := hm before (gapBefore next (G.words items)) (spell (G.words items) ++ after)
        h.2.1 (by simp [hs])
      exact hfirst.append (ih _ h.2.2 (by simp [hs])) rfl (by simp)

end Grammar

/-- The segments of a member of a service. -/
def ServiceMember.segments (width : Nat) (ctx : Context) (m : ServiceMember)
    (before next : Text) : List Segment :=
  match m with
  | .function d =>
    if d.leading.memberKind = .resourceAccessorDefinition then
      d.segments width before next
        (ctx.push (d.node .resourceAccessorDefinition before next))
    else [.kept (spell d.words)]
  | .other o => [.kept (spell o.words)]

theorem ServiceMember.marks {source : Text} {width : Nat} {ctx : Context} {p : Option Lexeme}
    {m : ServiceMember} {rest : List Lexeme} (before next after : Text)
    (h : serviceGrammar.Valid p m rest)
    (hs : source = before ++ spell (serviceGrammar.branch m).words ++ after) :
    Marks (fun r => Patch.resourceSites source width r (ctx.push r)) .resourceAccessorDefinition
      [serviceGrammar.branch m] before next (m.segments width ctx before next) := by
  cases m with
  | function d =>
    have hd : d.Valid Cursor.memberQualifiers d.leading.memberKind := h
    rw [serviceGrammar_function] at hs ⊢
    rw [Definition.words_branch] at hs
    rw [segments]
    split
    · rename_i hk
      rw [hk] at hd ⊢
      have hsites := Definition.sites hd hs width next
      refine .node ?_ (Definition.fitAll_segments hd _ _ _ _) ?_
      · rw [Definition.textAll_segments hd, ← Definition.words_branch .resourceAccessorDefinition d]
        rfl
      · have hwords := Definition.words_branch .resourceAccessorDefinition d
        rw [Definition.branch, words_node] at hwords
        rw [hwords]
        exact hsites _
    · rename_i hk
      exact .kept (by simpa [kinds, Definition.branch] using fun he => hk he.symm) (by simp)
  | other o => exact .kept (by simp [kinds, Other.branch]) (by simp)

namespace Service

/-- The words from the first annotation to the opening brace. -/
def front (leading : Leading) (s : Service) : List Word :=
  leading.words ++ s.head

/-- The node of a service. -/
def node (leading : Leading) (s : Service) (before next : Text) : Node :=
  nodeOver before next .serviceDeclaration .none (leading.words ++ s.words)
    (nodesAll before next (leading.branches ++ s.branches))

/-- The segments of a service. -/
def segments (leading : Leading) (s : Service) (width : Nat) (before : Text) (ctx : Context) :
    List Segment :=
  .kept (spell (s.front leading)) ::
    (serviceGrammar.segments (ServiceMember.segments width ctx)
      (before ++ spell (s.front leading)) s.closing.gap s.items ++ [.kept (spell s.foot)])

theorem wordsAll_headBranches (s : Service) : wordsAll s.headBranches = s.head := by
  simp [headBranches, head]

theorem wordsAll_footBranches (s : Service) : wordsAll s.footBranches = s.foot := by
  cases hs : s.semicolon <;> simp [footBranches, foot, hs]

theorem kinds_attachBranches (ws : List Word) : ∀ kind ∈ kinds (attachBranches ws),
    kind = .typeDescriptor ∨ kind = .absoluteResourcePath := by
  intro kind hk
  rw [attachBranches, kinds_append, List.mem_append] at hk
  rcases hk with hk | hk <;> split at hk <;> simp only [kinds, span, List.mem_cons,
    List.not_mem_nil, or_false] at hk
  · exact .inl hk
  · exact .inr hk

theorem kinds_front (leading : Leading) (s : Service) :
    Kind.resourceAccessorDefinition ∉ kinds (leading.branches ++ s.headBranches) := by
  rw [kinds_append, List.mem_append]
  rintro (hk | hk)
  · simpa using leading.kinds_branches _ hk
  · simp only [headBranches, kinds, leaf, span, kinds_append, List.mem_cons, List.mem_append,
      List.not_mem_nil, or_false, reduceCtorEq, false_or] at hk
    simpa using kinds_attachBranches _ _ hk

theorem marks {leading : Leading} {s : Service} {rest : List Lexeme} (h : s.Valid rest)
    {source before after : Text} (hs : source = before ++ spell (leading.words ++ s.words) ++ after)
    (width : Nat) (next : Text) (ctx : Context) :
    Marks (fun r => Patch.resourceSites source width r (ctx.push r)) .resourceAccessorDefinition
      (leading.branches ++ s.branches) before next (s.segments leading width before ctx) := by
  have hitems : Marks (fun r => Patch.resourceSites source width r (ctx.push r))
      .resourceAccessorDefinition (s.items.map serviceGrammar.itemBranch)
      (before ++ spell (s.front leading)) s.closing.gap
      (serviceGrammar.segments (ServiceMember.segments width ctx)
        (before ++ spell (s.front leading)) s.closing.gap s.items) :=
    Grammar.marks ServiceMember.marks _ _ (spell s.foot ++ after) h.items
      (by simp [hs, front, words])
  have hfoot : Marks (fun r => Patch.resourceSites source width r (ctx.push r))
      .resourceAccessorDefinition s.footBranches
      (before ++ spell (s.front leading) ++ spell (serviceGrammar.words s.items)) next
      [.kept (spell s.foot)] :=
    .kept (by simp [footBranches, leaf, kinds]) s.wordsAll_footBranches
  have hfront : Marks (fun r => Patch.resourceSites source width r (ctx.push r))
      .resourceAccessorDefinition (leading.branches ++ s.headBranches) before
      (gapBefore s.closing.gap (serviceGrammar.words s.items)) [.kept (spell (s.front leading))] :=
    .kept (s.kinds_front leading) (by simp [front, wordsAll_headBranches])
  rw [branches, ← List.append_assoc]
  refine hfront.append (hitems.append hfoot ?_ rfl) ?_ ?_
  · rw [wordsAll_footBranches]
    rfl
  · rw [wordsAll_append, gapBefore_append, wordsAll_footBranches]
    rfl
  · simp [front, wordsAll_headBranches]

theorem sites {leading : Leading} {s : Service} {rest : List Lexeme} (h : s.Valid rest)
    {source before after : Text} (hs : source = before ++ spell (leading.words ++ s.words) ++ after)
    (width : Nat) (next : Text) (ctx : Context) :
    Patch.serviceSites source width (s.node leading before next) ctx
      = .ok (sitesAll before.length (s.segments leading width before ctx)) :=
  (marks h hs width next ctx).flatten rfl

end Service

/-- The segments of a member of a module. -/
def ModuleMember.segments (width : Nat) (ctx : Context) (m : ModuleMember) (before next : Text) :
    List Segment :=
  match m with
  | .service leading s => s.segments leading width before (ctx.push (s.node leading before next))
  | m => [.kept (spell (moduleGrammar.branch m).words)]

theorem ModuleMember.marks {source : Text} {width : Nat} {ctx : Context} {p : Option Lexeme}
    {m : ModuleMember} {rest : List Lexeme} (before next after : Text)
    (h : moduleGrammar.Valid p m rest)
    (hs : source = before ++ spell (moduleGrammar.branch m).words ++ after) :
    Marks (fun s => Patch.serviceSites source width s (ctx.push s)) .serviceDeclaration
      [moduleGrammar.branch m] before next (m.segments width ctx before next) := by
  cases m with
  | declaration i => exact .kept (by simp [kinds, Import.branch]) (by simp)
  | service leading s =>
    have hwords : wordsAll (leading.branches ++ s.branches) = leading.words ++ s.words := by simp
    rw [moduleGrammar_service, words_node, hwords] at hs
    have hmarks := Service.marks h.2 hs width next
    refine .node (hmarks _).text (hmarks _).fits ?_
    rw [hwords]
    exact Service.sites h.2 hs width next _
  | function d => exact .kept (by simp [kinds, Definition.branch]) (by simp)
  | other o => exact .kept (by simp [kinds, Other.branch]) (by simp)

/-- The segments of a module. -/
def moduleSegments (width : Nat) (ctx : Context) (tail : Text) (items : List (Item ModuleMember)) :
    List Segment :=
  moduleGrammar.segments (ModuleMember.segments width ctx) [] tail items ++ [.kept tail]

theorem moduleMarks {items : List (Item ModuleMember)} {tail source : Text}
    (h : moduleGrammar.AllValid none items [])
    (hs : source = spell (moduleGrammar.words items) ++ tail) (width : Nat) (ctx : Context) :
    Marks (fun s => Patch.serviceSites source width s (ctx.push s)) .serviceDeclaration
      (items.map moduleGrammar.itemBranch) [] tail
      (moduleGrammar.segments (ModuleMember.segments width ctx) [] tail items) :=
  Grammar.marks ModuleMember.marks [] tail tail h hs

theorem textAll_moduleSegments {items : List (Item ModuleMember)}
    (h : moduleGrammar.AllValid none items []) (tail : Text) (width : Nat) (ctx : Context) :
    textAll (moduleSegments width ctx tail items) = spell (moduleGrammar.words items) ++ tail := by
  have ht := (moduleMarks h (Eq.refl (spell (moduleGrammar.words items) ++ tail)) width ctx).text
  rw [moduleSegments, textAll_append, ht]
  simp [Segment.text, Grammar.words]

theorem fitAll_moduleSegments {items : List (Item ModuleMember)}
    (h : moduleGrammar.AllValid none items []) (tail : Text) (width : Nat) (ctx : Context) :
    FitAll 0 (moduleSegments width ctx tail items) := by
  have hf := (moduleMarks h (Eq.refl (spell (moduleGrammar.words items) ++ tail)) width ctx).fits
  exact (fitAll_append _ _ _).2 ⟨hf, trivial, trivial⟩

/-- The sites of the tree of a source are those of its segments. -/
theorem sites_of_items {items : List (Item ModuleMember)} {tail source : Text}
    (h : moduleGrammar.AllValid none items [])
    (hs : source = spell (moduleGrammar.words items) ++ tail) (width : Nat) :
    let tree := Tree.ofBranches source tail (items.map moduleGrammar.itemBranch)
    Patch.sites tree width
      = .ok (sitesAll 0 (moduleSegments width (Context.root tree.root) tail items)) := by
  intro tree
  have hmarks := moduleMarks h hs width (Context.root tree.root)
  rw [moduleSegments, sitesAll_append]
  simp only [sitesAll, Segment.sites, List.append_nil]
  exact hmarks.flatten rfl

end Phrase

/-! ## Every node as a root -/

/-- Whether the sites of a tree with this root are those of segments of the source. -/
def Planned (source : Text) (n : Node) : Prop :=
  ∀ width, ∃ before segs after, source = before ++ textAll segs ++ after
    ∧ FitAll before.length segs ∧ Patch.sites ⟨source, n⟩ width = .ok (sitesAll before.length segs)

/-- The kinds of nodes with sites below them. -/
def sitedKinds : List Kind :=
  [.modulePart, .serviceDeclaration, .resourceAccessorDefinition, .functionSignature,
    .functionBodyBlock]

theorem Planned.of_kind {source : Text} {n : Node} (h : n.kind ∉ sitedKinds) :
    Planned source n := by
  intro width
  refine ⟨[], [], source, by simp, trivial, ?_⟩
  unfold Patch.sites
  split <;> simp_all [sitedKinds, sitesAll]

/-- Whether every node of branches is planned. -/
def AllPlanned (source before next : Text) (bs : List Branch) : Prop :=
  ∀ n ∈ Node.walkAll (nodesAll before next bs), Planned source n

namespace AllPlanned

variable {source before next : Text}

theorem append {bs cs : List Branch}
    (hb : AllPlanned source before (gapBefore next (wordsAll cs)) bs)
    (hc : AllPlanned source (before ++ spell (wordsAll bs)) next cs) :
    AllPlanned source before next (bs ++ cs) := by
  intro n hn
  rw [nodesAll_append, Node.walkAll_append, List.mem_append] at hn
  exact hn.elim (hb n) (hc n)

theorem cons {b : Branch} {bs : List Branch}
    (hb : AllPlanned source before (gapBefore next (wordsAll bs)) [b])
    (hbs : AllPlanned source (before ++ spell b.words) next bs) :
    AllPlanned source before next (b :: bs) := by
  show AllPlanned source before next ([b] ++ bs)
  exact append hb (by simpa using hbs)

theorem nil : AllPlanned source before next [] := by
  simp [AllPlanned, Node.walkAll]

theorem words (ws : List Word) : AllPlanned source before next (ws.map .word) := by
  simp [AllPlanned, Node.walkAll]

theorem node {kind : Kind} {label : Label} {bs : List Branch}
    (hn : Planned source (nodeOver before next kind label (wordsAll bs) (nodesAll before next bs)))
    (hb : AllPlanned source before next bs) :
    AllPlanned source before next [.node kind label bs] := by
  intro n hm
  rw [nodesAll_cons, nodesAll_nil, List.append_nil, nodes_node, wordsAll_nil, gapBefore_nil] at hm
  simp only [Node.walkAll, nodeOver, Node.walk, List.append_nil, List.mem_cons] at hm
  rcases hm with rfl | hm
  · exact hn
  · exact hb n hm

theorem plain {kind : Kind} {label : Label} {bs : List Branch} (hk : kind ∉ sitedKinds)
    (hb : AllPlanned source before next bs) :
    AllPlanned source before next [.node kind label bs] :=
  node (.of_kind hk) hb

theorem span {kind : Kind} (hk : kind ∉ sitedKinds) (ws : List Word) :
    AllPlanned source before next [.span kind ws] :=
  plain hk (words ws)

theorem leaf {kind : Kind} (hk : kind ∉ sitedKinds) (w : Word) :
    AllPlanned source before next [.leaf kind w] :=
  span hk [w]

theorem of_forall {bs : List Branch}
    (h : ∀ b ∈ bs, ∀ before next, AllPlanned source before next [b]) :
    AllPlanned source before next bs := by
  induction bs generalizing before with
  | nil => exact nil
  | cons b bs ih =>
    exact cons (h b List.mem_cons_self _ _) (ih fun c hc => h c (List.mem_cons_of_mem _ hc))

end AllPlanned

namespace Phrase

variable {source : Text}

theorem Leading.allPlanned (h : Leading) (before next : Text) :
    AllPlanned source before next h.branches := by
  refine .of_forall fun b hb before next => ?_
  rcases List.mem_append.1 hb with hb | hb
  · obtain ⟨a, -, rfl⟩ := List.mem_map.1 hb
    exact .span (by decide) _
  · obtain ⟨w, -, rfl⟩ := List.mem_map.1 hb
    exact .leaf (by decide) w

theorem allPlanned_parameterBranches (depth : Nat) (run ws : List Word) (before next : Text) :
    AllPlanned source before next (parameterBranches depth run ws) := by
  have hrun : ∀ (r : List Word) (before next : Text),
      AllPlanned source before next (if r.isEmpty then [] else [.span .parameter r]) := by
    intro r before next
    split
    · exact .nil
    · exact .span (by decide) r
  induction ws generalizing depth run before with
  | nil => exact hrun run before next
  | cons w ws ih =>
    rw [parameterBranches]
    split
    · exact .append (hrun run _ _) (.cons (.words [w]) (ih _ _ _))
    · exact ih _ _ _

theorem Returns.allPlanned (r : Returns) (before next : Text) :
    AllPlanned source before next [r.branch] := by
  refine .plain (by decide) (.of_forall fun b hb before next => ?_)
  rcases List.mem_cons.1 hb with rfl | hb
  · exact .leaf (by decide) _
  · rcases List.mem_append.1 hb with hb | hb
    · obtain ⟨a, -, rfl⟩ := List.mem_map.1 hb
      exact .span (by decide) _
    · rw [List.mem_singleton.1 hb]
      exact .span (by decide) _

theorem Signature.allPlanned {s : Signature} {rest : List Lexeme} (h : s.Valid rest)
    {before after : Text} (hs : source = before ++ spell s.words ++ after) (next : Text) :
    AllPlanned source before next [s.branch] := by
  refine .node ?_ (.append (.cons (.leaf (by decide) _)
    (.append (allPlanned_parameterBranches _ _ _ _ _) (.leaf (by decide) _))) ?_)
  · intro width
    have hwords := s.words_branch
    rw [branch, words_node] at hwords
    rw [hwords]
    refine ⟨before, _, after, ?_, Signature.fitAll_segments h before next _,
      s.sites before next (Context.root (s.node before next))⟩
    rw [Signature.textAll_segments h, hs]
  · obtain ⟨params, returns⟩ := s
    cases returns with
    | none => exact .nil
    | some r => exact r.allPlanned _ _

theorem Body.allPlanned {b : Body} (h : b.Valid) {before after : Text}
    (hs : source = before ++ spell b.words ++ after) (next : Text) :
    AllPlanned source before next b.branches := by
  cases b with
  | block g =>
    refine .node ?_ (.cons (.leaf (by decide) _) (.append (.words _) (.leaf (by decide) _)))
    intro width
    have hwords := (Body.block g).wordsAll_branches
    rw [branches, wordsAll_cons, wordsAll_nil, List.append_nil, words_node] at hwords
    rw [hwords]
    refine ⟨before, _, after, ?_, g.fitAll_segments width before _ _,
      Group.sites h hs width next (Context.root (g.node before next))⟩
    rw [g.textAll_segments, hs]
    rfl
  | clause sign content semicolon =>
    refine .plain ?_ (.words _)
    unfold clauseKind
    split <;> decide
  | bare semicolon => exact .words [semicolon]

theorem Definition.allPlanned {d : Definition} {allowed : List Text} {kind : Kind}
    (h : d.Valid allowed kind)
    (hk : kind = .resourceAccessorDefinition ∨ kind ∉ sitedKinds) {before after : Text}
    (hs : source = before ++ spell d.words ++ after) (next : Text) :
    AllPlanned source before next [d.branch kind] := by
  have hwords := d.words_branch kind
  rw [branch, words_node] at hwords
  refine .node ?_ ?_
  · rcases hk with rfl | hk
    · intro width
      rw [hwords]
      refine ⟨before, _, after, ?_, Definition.fitAll_segments h width before next _,
        Definition.sites h hs width next (Context.root (d.node _ before next))⟩
      rw [Definition.textAll_segments h, hs]
    · exact .of_kind hk
  · rw [d.branches_eq]
    rw [words_eq, spell_append, spell_append] at hs
    refine .append ?_ (.cons ?_ ?_)
    · refine .append (d.leading.allPlanned _ _) (.cons (.leaf (by decide) _)
        (.cons (.leaf (by decide) _) ?_))
      split
      · exact .nil
      · exact .span (by decide) _
    · have hsig : source = before ++ spell d.front ++ spell d.function.signature.words
          ++ (spell d.function.body.words ++ after) := by simp [hs]
      rw [wordsAll_frontBranches]
      exact Signature.allPlanned h.function.signature hsig _
    · have hbody : source = before ++ spell d.front ++ spell d.function.signature.words
          ++ spell d.function.body.words ++ after := by simp [hs]
      rw [wordsAll_frontBranches, Signature.words_branch]
      exact Body.allPlanned h.function.body hbody _

theorem Other.allPlanned (o : Other) (before next : Text) :
    AllPlanned source before next [o.branch] :=
  .plain (by decide) (.words _)

theorem Grammar.allPlanned {M : Type} {G : Grammar M}
    (hm : ∀ {p : Option Lexeme} {m : M} {rest : List Lexeme} (before next after : Text),
      G.Valid p m rest → source = before ++ spell (G.branch m).words ++ after →
      AllPlanned source before next [G.branch m])
    {items : List (Item M)} {p : Option Lexeme} {rest : List Lexeme} (before next after : Text)
    (h : G.AllValid p items rest) (hs : source = before ++ spell (G.words items) ++ after) :
    AllPlanned source before next (items.map G.itemBranch) := by
  induction items generalizing p before with
  | nil => exact .nil
  | cons item items ih =>
    cases item with
    | semicolon w => exact .cons (.words [w]) (ih _ h.2 (by simp [hs, itemBranch]))
    | member m =>
      exact .cons (hm before _ (spell (G.words items) ++ after) h.2.1 (by simp [hs]))
        (ih _ h.2.2 (by simp [hs, itemBranch]))

theorem ServiceMember.allPlanned {p : Option Lexeme} {m : ServiceMember} {rest : List Lexeme}
    (before next after : Text) (h : serviceGrammar.Valid p m rest)
    (hs : source = before ++ spell (serviceGrammar.branch m).words ++ after) :
    AllPlanned source before next [serviceGrammar.branch m] := by
  cases m with
  | function d =>
    rw [serviceGrammar_function, Definition.words_branch] at hs
    refine Definition.allPlanned h ?_ hs next
    unfold Leading.memberKind
    split
    · exact .inl rfl
    · exact .inr (by decide)
  | other o => exact o.allPlanned before next

theorem Service.allPlanned {leading : Leading} {s : Service} {rest : List Lexeme}
    (h : s.Valid rest) {before after : Text}
    (hs : source = before ++ spell (leading.words ++ s.words) ++ after) (next : Text) :
    AllPlanned source before next (leading.branches ++ s.branches) := by
  refine .append (leading.allPlanned _ _) (.append ?_ (.append ?_ ?_))
  · refine .cons (.leaf (by decide) _) (.append (.of_forall fun b hb before next => ?_)
      (.cons (.leaf (by decide) _) (.cons (.span (by decide) _) (.leaf (by decide) _))))
    rcases List.mem_append.1 hb with hb | hb <;> split at hb <;>
      simp only [List.mem_cons, List.not_mem_nil, or_false] at hb
    · rw [hb]
      exact .span (by decide) _
    · rw [hb]
      exact .span (by decide) _
  · refine Grammar.allPlanned ServiceMember.allPlanned _ _ (spell s.foot ++ after) h.items ?_
    simp [hs, words, wordsAll_headBranches]
  · exact .cons (.leaf (by decide) _) (.words _)

theorem ModuleMember.allPlanned {p : Option Lexeme} {m : ModuleMember} {rest : List Lexeme}
    (before next after : Text) (h : moduleGrammar.Valid p m rest)
    (hs : source = before ++ spell (moduleGrammar.branch m).words ++ after) :
    AllPlanned source before next [moduleGrammar.branch m] := by
  cases m with
  | declaration i =>
    refine .plain (by decide) (.of_forall fun b hb before next => ?_)
    have hb : (∃ w, b = .word w) ∨ ∃ w, b = .leaf .identifier w := by
      obtain ⟨keyword, name, renamed, semicolon⟩ := i
      rcases renamed with _ | ⟨k, given, rest⟩ <;>
        simp [Import.aliasBranches, Alias.branches] at hb <;> grind
    rcases hb with ⟨w, rfl⟩ | ⟨w, rfl⟩
    · exact .words [w]
    · exact .leaf (by decide) w
  | service leading s =>
    have hwords : wordsAll (leading.branches ++ s.branches) = leading.words ++ s.words := by simp
    rw [moduleGrammar_service, words_node, hwords] at hs
    refine .node (fun width => ?_) (Service.allPlanned h.2 hs next)
    have hmarks := Service.marks h.2 hs width next (Context.root (s.node leading before next))
    refine ⟨before, _, after, ?_, hmarks.fits, ?_⟩
    · rw [hmarks.text, hwords, hs]
    · rw [hwords]
      exact Service.sites h.2 hs width next (Context.root (s.node leading before next))
  | function d =>
    rw [moduleGrammar_function, Definition.words_branch] at hs
    exact Definition.allPlanned h (.inr (by decide)) hs next
  | other o => exact o.allPlanned before next

end Phrase

/-- Every node of the tree of a source is planned. -/
theorem planned_of_walk {source : Text} {tree : Tree} (h : Tree.parse source = .ok tree) :
    ∀ n ∈ tree.root.walk, Planned source n := by
  obtain ⟨items, tail, hs, hv, hl, ht, rfl⟩ := Tree.exists_of_parse h
  intro n hn
  simp only [Tree.ofBranches, Node.walk, List.mem_cons] at hn
  rcases hn with rfl | hn
  · intro width
    refine ⟨[], _, [], ?_, Phrase.fitAll_moduleSegments hv tail width _,
      Phrase.sites_of_items hv hs width⟩
    rw [Phrase.textAll_moduleSegments hv, hs]
    simp
  · exact Phrase.Grammar.allPlanned Phrase.ModuleMember.allPlanned [] tail tail hv hs n hn

end BalMediation
