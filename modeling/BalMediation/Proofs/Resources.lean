import BalMediation.Proofs.Appending
import BalMediation.Proofs.Mending

/-!
# The resources of a tree

The resources of a tree in the order of the source, with their parameters and their return types.
They are those of the phrases that the source spells (`Tree.map_resources`), and every question that
is asked for the tree stands in one of them (`Request.StandsIn.of_mem`).

So what a generator makes of the resources of a source can be read off the tree of the patched
source (`Patch.exists_remade`).
-/

namespace BalMediation

open Lexer Segment Branch Phrase

/-- The texts of the parameters of a function. -/
def Node.parameters (n : Node) : List Text :=
  (n.firstChild? .functionSignature).toList.flatMap fun s =>
    (s.childrenOf [.parameter]).map (·.text)

/-- The node of the return type of a function. -/
def Node.returnType? (n : Node) : Option Node :=
  ((n.firstChild? .functionSignature).bind (·.firstChild? .returnTypeDescriptor)).bind
    (·.firstChild? .typeDescriptor)

/-- The contexts of the resources of a module, in the order of the source. -/
def Tree.resources (t : Tree) : List Context :=
  (t.root.childrenOf [.serviceDeclaration]).flatMap fun s =>
    (s.childrenOf [.resourceAccessorDefinition]).map ((Context.root t.root).push s).push

/-- The resources of the services among nodes. -/
def Node.inServices (ns : List Node) : List Node :=
  (ns.filter fun n => [Kind.serviceDeclaration].contains n.kind).flatMap
    (·.childrenOf [.resourceAccessorDefinition])

theorem Node.inServices_append (as bs : List Node) :
    inServices (as ++ bs) = inServices as ++ inServices bs := by
  simp [inServices]

theorem Branch.padAll_append {g : Text} {as : List Branch} (h : wordsAll as ≠ [])
    (bs : List Branch) : padAll g (as ++ bs) = padAll g as ++ bs := by
  induction as with
  | nil => exact absurd (by simp) h
  | cons a as ih =>
    rw [List.cons_append, padAll, padAll]
    split
    · rename_i ha
      rw [wordsAll_cons, List.isEmpty_iff.1 ha, List.nil_append] at h
      rw [ih h]
      rfl
    · rfl

namespace Phrase

/-! ## Resources of phrases -/

/-- The runs of words between the commas that lie in no bracket. `run` is what has been read of the
run at the front. -/
def parameterRuns (depth : Nat) (run : List Word) : List Word → List (List Word)
  | [] => if run.isEmpty then [] else [run]
  | w :: ws =>
    if depth = 0 && w.lexeme.isOp [','] then
      (if run.isEmpty then [] else [run]) ++ parameterRuns 0 [] ws
    else parameterRuns (depthAfter depth w.lexeme) (run ++ [w]) ws

theorem text_parameterBranches (depth : Nat) (run ws : List Word) (before next : Text) :
    (nodesAll before next (parameterBranches depth run ws)).map (·.text)
      = (parameterRuns depth run ws).map caption := by
  have hrun : ∀ (r : List Word) (before next : Text),
      (nodesAll before next (if r.isEmpty then [] else [.span .parameter r])).map (·.text)
        = (if r.isEmpty then [] else [r]).map caption := by
    intro r before next
    cases r <;> simp [span, nodeOver, labelled, Node.text]
  induction ws generalizing depth run before with
  | nil => exact hrun run before next
  | cons w ws ih =>
    rw [parameterBranches, parameterRuns]
    split
    · rw [nodesAll_append, List.map_append, List.map_append, hrun, nodesAll_cons, nodes_word,
        List.nil_append, ih]
    · exact ih _ _ _

/-- The texts of the parameters of a resource. -/
def Definition.parameters (d : Definition) : List Text :=
  (parameterRuns 0 [] d.function.signature.params.inside).map caption

/-- The text of the return type of a resource. -/
def Definition.returnType? (d : Definition) : Option Text :=
  d.function.signature.returns.map (caption ·.type)

theorem Signature.parameters_node (s : Signature) (before next : Text) :
    ((s.node before next).childrenOf [.parameter]).map (·.text)
      = (parameterRuns 0 [] s.params.inside).map caption := by
  have hall : ∀ before next, (nodesAll before next (parameterBranches 0 [] s.params.inside)).filter
      (fun n => [Kind.parameter].contains n.kind)
        = nodesAll before next (parameterBranches 0 [] s.params.inside) := by
    intro before next
    rw [List.filter_eq_self]
    intro n hn
    rw [kinds_parameterBranches _ _ _ _ (kind_mem_kinds hn)]
    rfl
  have hreturns : ∀ before next, (nodesAll before next (s.returns.toList.map Returns.branch)).filter
      (fun n => [Kind.parameter].contains n.kind) = [] := by
    intro before next
    refine filter_nodesAll ?_
    cases s.returns <;> simp [kinds, Returns.branch]
  have hleaf : ∀ kind (w : Word) before next, kind ≠ Kind.parameter →
      (nodes before next (.leaf kind w)).filter (fun n => [Kind.parameter].contains n.kind)
        = [] := by
    intro kind w before next hk
    simp [leaf, nodeOver, hk]
  simp only [node, nodeOver, Node.childrenOf, paramsBranches, nodesAll_append, nodesAll_cons,
    nodesAll_nil, List.cons_append, List.filter_append, List.append_nil, hall, hreturns,
    hleaf .openParen _ _ _ (by decide), hleaf .closeParen _ _ _ (by decide), List.nil_append,
    text_parameterBranches]

theorem Definition.parameters_node (d : Definition) (kind : Kind) (before next : Text) :
    (d.node kind before next).parameters = d.parameters := by
  rw [Node.parameters, child_signature, Option.toList_some, List.flatMap_singleton,
    Signature.parameters_node]
  rfl

theorem Definition.returnType?_node (d : Definition) (kind : Kind) (before next : Text) :
    (d.node kind before next).returnType?.map (·.value) = d.returnType?.map some := by
  rw [Node.returnType?, child_signature, Option.bind_some, Signature.child_returns, returnType?]
  cases d.function.signature.returns with
  | none => rfl
  | some r =>
    rw [Option.map_some, Option.bind_some, firstChild?_of_child (r.child_type _ _)]
    rfl

/-- The resources among the members of a service. -/
def serviceResources (items : List (Item ServiceMember)) : List Definition :=
  items.filterMap fun
    | .member (.function d) =>
      if d.leading.memberKind = .resourceAccessorDefinition then some d else none
    | _ => none

/-- The resources of the services among the members of a module. -/
def moduleResources (items : List (Item ModuleMember)) : List Definition :=
  items.flatMap fun
    | .member (.service _ s) => serviceResources s.items
    | _ => []

section Nodes

variable {α : Type} {f : Node → α} {F : Definition → α}
  (hf : ∀ d before next, f (Definition.node .resourceAccessorDefinition d before next) = F d)

include hf

theorem map_serviceResources (items : List (Item ServiceMember)) (before next : Text) :
    ((nodesAll before next (items.map serviceGrammar.itemBranch)).filter fun n =>
      [Kind.resourceAccessorDefinition].contains n.kind).map f
        = (serviceResources items).map F := by
  induction items generalizing before with
  | nil => simp [serviceResources]
  | cons item items ih =>
    rw [List.map_cons, nodesAll_cons, List.filter_append, List.map_append, ih]
    rcases item with w | (d | o)
    · simp [Grammar.itemBranch, serviceResources]
    · by_cases hk : d.leading.memberKind = .resourceAccessorDefinition
      · have hnode := hf d before (gapBefore next (wordsAll (items.map serviceGrammar.itemBranch)))
        simp only [Definition.node, nodeOver] at hnode
        have hwords := d.words_branch .resourceAccessorDefinition
        rw [Definition.branch, words_node] at hwords
        simp [Grammar.itemBranch, serviceResources, hk, Definition.branch, nodeOver, ← hnode,
          ← hwords]
      · simp [Grammar.itemBranch, serviceResources, hk, Definition.branch, nodeOver]
    · simp [Grammar.itemBranch, serviceResources, Other.branch, nodeOver]

/-- The resources of a service, whatever gap is in front of it. -/
theorem map_serviceResources_of_append (s : Service) {front : List Branch}
    (hfront : Kind.resourceAccessorDefinition ∉ kinds front) (before next : Text) :
    ((nodesAll before next (front ++ (s.items.map serviceGrammar.itemBranch
      ++ s.footBranches))).filter fun n => [Kind.resourceAccessorDefinition].contains n.kind).map f
        = (serviceResources s.items).map F := by
  have hfoot : Kind.resourceAccessorDefinition ∉ kinds s.footBranches := by
    simp [Service.footBranches, leaf, kinds]
  rw [nodesAll_append, nodesAll_append, List.filter_append, List.filter_append,
    filter_nodesAll hfront, filter_nodesAll hfoot, List.nil_append, List.append_nil,
    map_serviceResources hf]

/-- The resources of a member of a module, also behind a gap. -/
theorem map_moduleResources_item (item : Item ModuleMember) {b : Branch}
    (hb : b = moduleGrammar.itemBranch item ∨ ∃ g, b = padded g (moduleGrammar.itemBranch item))
    (before next : Text) :
    (Node.inServices (nodes before next b)).map f = (moduleResources [item]).map F := by
  rcases item with w | (i | ⟨leading, s⟩ | d | o)
  · rcases hb with rfl | ⟨g, rfl⟩ <;>
      simp [Grammar.itemBranch, padded, Node.inServices, moduleResources]
  · rcases hb with rfl | ⟨g, rfl⟩ <;>
      simp [Grammar.itemBranch, padded, Node.inServices, moduleResources, Import.branch, nodeOver]
  · have hsplit : leading.branches ++ s.branches = (leading.branches ++ s.headBranches)
        ++ (s.items.map serviceGrammar.itemBranch ++ s.footBranches) := by
      rw [Service.branches, List.append_assoc]
    obtain ⟨front, hkinds, rfl⟩ : ∃ front, Kind.resourceAccessorDefinition ∉ kinds front
        ∧ b = .node .serviceDeclaration .none
          (front ++ (s.items.map serviceGrammar.itemBranch ++ s.footBranches)) := by
      rcases hb with rfl | ⟨g, rfl⟩
      · exact ⟨_, s.kinds_front leading, by
          rw [Grammar.itemBranch, moduleGrammar_service, hsplit]⟩
      · refine ⟨padAll g (leading.branches ++ s.headBranches), ?_, ?_⟩
        · rw [kinds_padAll]
          exact s.kinds_front leading
        · rw [Grammar.itemBranch, moduleGrammar_service, padded, hsplit, padAll_append]
          simp [Service.wordsAll_headBranches, Service.head]
    have hs := map_serviceResources_of_append hf s hkinds before next
    simpa [Node.inServices, moduleResources, nodeOver, Node.childrenOf] using hs
  · rcases hb with rfl | ⟨g, rfl⟩ <;>
      simp [Grammar.itemBranch, padded, Node.inServices, moduleResources, Definition.branch,
        nodeOver]
  · rcases hb with rfl | ⟨g, rfl⟩ <;>
      simp [Grammar.itemBranch, padded, Node.inServices, moduleResources, Other.branch, nodeOver]

theorem map_moduleResources (items : List (Item ModuleMember)) (before next : Text) :
    (Node.inServices (nodesAll before next (items.map moduleGrammar.itemBranch))).map f
      = (moduleResources items).map F := by
  induction items generalizing before with
  | nil => simp [Node.inServices, moduleResources]
  | cons item items ih =>
    rw [List.map_cons, nodesAll_cons, Node.inServices_append, List.map_append, ih,
      map_moduleResources_item hf item (.inl rfl), ← List.map_append]
    simp [moduleResources]

/-- A gap in front of a module does not change its resources. -/
theorem map_moduleResources_padAll {items : List (Item ModuleMember)} {p : Option Lexeme}
    (hv : moduleGrammar.AllValid p items []) (g before next : Text) :
    (Node.inServices (nodesAll before next (padAll g (items.map moduleGrammar.itemBranch)))).map f
      = (moduleResources items).map F := by
  cases items with
  | nil => simp [padAll, Node.inServices, moduleResources]
  | cons item items =>
    have hne : (moduleGrammar.itemBranch item).words ≠ [] := by
      cases item with
      | semicolon w => simp [Grammar.itemBranch]
      | member m =>
        obtain ⟨⟨l, hl, -⟩, -⟩ := hv
        intro hw
        rw [show (moduleGrammar.branch m).words = [] from hw] at hl
        cases hl
    rw [List.map_cons, padAll, if_neg (by simpa using hne), nodesAll_cons, Node.inServices_append,
      List.map_append, map_moduleResources hf, map_moduleResources_item hf item (.inr ⟨g, rfl⟩),
      ← List.map_append]
    simp [moduleResources]

end Nodes

theorem serviceResources_of_rel {R : Definition → Definition → Prop}
    {items items' : List (Item ServiceMember)}
    (h : List.Forall₂ (Item.Rel (ServiceMember.Rel R)) items items') :
    List.Forall₂ R (serviceResources items) (serviceResources items') := by
  induction h with
  | nil => exact .nil
  | cons hi _ ih =>
    cases hi with
    | semicolon w => exact ih
    | member hm =>
      cases hm with
      | other o => exact ih
      | method hk => simpa [serviceResources, hk] using ih
      | resource hk hlead hr =>
        simpa [serviceResources, hlead, hk] using And.intro hr ih

theorem moduleResources_of_rel {R : Definition → Definition → Prop}
    {items items' : List (Item ModuleMember)}
    (h : List.Forall₂ (Item.Rel (ModuleMember.Rel R)) items items') :
    List.Forall₂ R (moduleResources items) (moduleResources items') := by
  induction h with
  | nil => exact .nil
  | cons hi _ ih =>
    cases hi with
    | semicolon w => exact ih
    | member hm =>
      cases hm with
      | declaration i => exact ih
      | function d => exact ih
      | other o => exact ih
      | service leading hitems => exact List.rel_append (serviceResources_of_rel hitems) ih

end Phrase

/-! ## Questions -/

/-- Whether a question is asked in a resource of a tree, or for its imports. -/
inductive Request.StandsIn (tree : Tree) : Request → Prop
  | imports : StandsIn tree (.imports (Context.root tree.root))
  | params {ctx : Context} {signature : Node} : ctx ∈ tree.resources →
      ctx.node.firstChild? .functionSignature = some signature →
      StandsIn tree (.params signature (ctx.push signature))
  | returnType {ctx : Context} {signature descriptor type : Node} : ctx ∈ tree.resources →
      ctx.node.firstChild? .functionSignature = some signature →
      signature.firstChild? .returnTypeDescriptor = some descriptor →
      descriptor.firstChild? .typeDescriptor = some type →
      StandsIn tree (.returnType type (ctx.push signature))
  | record {ctx : Context} {body : Node} (level : Nat) : ctx ∈ tree.resources →
      body.kind = .functionBodyBlock → StandsIn tree (.record (ctx.push body) level)
  | block {ctx : Context} {body : Node} (level : Nat) : ctx ∈ tree.resources →
      body.kind = .functionBodyBlock → StandsIn tree (.block (ctx.push body) level)

theorem exists_of_mem_mapM {ε α β : Type} {f : α → Except ε (List β)} {as : List α}
    {bss : List (List β)} (h : as.mapM f = .ok bss) {b : β} (hb : b ∈ bss.flatten) :
    ∃ a ∈ as, ∃ bs, f a = .ok bs ∧ b ∈ bs := by
  obtain ⟨bs, hbs, hb⟩ := List.mem_flatten.1 hb
  obtain ⟨a, ha, hf⟩ := exists_of_mapM h hbs
  exact ⟨a, ha, bs, hf, hb⟩

/-- The questions at the sites of a resource. -/
theorem Request.StandsIn.of_resource {tree : Tree} {ctx : Context} (hctx : ctx ∈ tree.resources)
    {width : Nat} {ss : List Site}
    (h : Patch.resourceSites tree.source width ctx.node ctx = .ok ss) {r : Request}
    (hr : r ∈ ss.flatMap Site.requests) : r.StandsIn tree := by
  rw [resourceSites_eq] at h
  obtain ⟨front, hfront, h⟩ := bind_ok h
  obtain ⟨back, hback, h⟩ := bind_ok h
  cases h
  rw [List.flatMap_append, List.mem_append] at hr
  rcases hr with hr | hr
  · cases hs : ctx.node.firstChild? .functionSignature with
    | none =>
      rw [hs] at hfront
      cases hfront
      cases hr
    | some signature =>
      rw [hs, Option.map_some, Option.getD_some] at hfront
      obtain ⟨paren, -, hfront⟩ := bind_ok hfront
      split at hfront
      · cases hfront
        rw [show r = .params signature (ctx.push signature) by simpa [Site.requests] using hr]
        exact .params hctx hs
      · rename_i descriptor hd
        obtain ⟨type, ht, hfront⟩ := bind_ok hfront
        cases hfront
        have hr : r = .params signature (ctx.push signature)
            ∨ r = .returnType type (ctx.push signature) := by simpa [Site.requests] using hr
        rcases hr with rfl | rfl
        · exact .params hctx hs
        · exact .returnType hctx hs hd (firstChild?_of_child ht)
  · cases hb : ctx.node.firstChild? .functionBodyBlock with
    | none =>
      rw [hb] at hback
      cases hback
      cases hr
    | some body =>
      have hk : body.kind = .functionBodyBlock := by simpa using List.find?_some hb
      rw [hb, Option.map_some, Option.getD_some] at hback
      obtain ⟨brace, -, hback⟩ := bind_ok hback
      cases hback
      rw [List.flatMap_singleton] at hr
      rcases List.mem_cons.1 hr with rfl | hr
      · exact .record _ hctx hk
      · rw [List.mem_singleton.1 hr]
        exact .block _ hctx hk

/-- Every question that is asked for a module stands in one of its resources. -/
theorem Request.StandsIn.of_mem {tree : Tree} (hk : tree.root.kind = .modulePart) {width : Nat}
    {requests : List Request} (h : Patch.requests tree width = .ok requests) {r : Request}
    (hr : r ∈ requests) : r.StandsIn tree := by
  obtain ⟨sites, hsites, h⟩ := bind_ok h
  cases h
  rcases List.mem_append.1 hr with hr | hr
  · rw [Patch.sites, hk] at hsites
    obtain ⟨sss, hsss, hsites⟩ := bind_ok hsites
    cases hsites
    obtain ⟨site, hsite, hr⟩ := List.mem_flatMap.1 hr
    obtain ⟨service, hservice, ss, hss, hsite⟩ := exists_of_mem_mapM hsss hsite
    obtain ⟨rss, hrss, hss⟩ := bind_ok hss
    cases hss
    obtain ⟨resource, hresource, ss, hss, hsite⟩ := exists_of_mem_mapM hrss hsite
    have hctx : ((Context.root tree.root).push service).push resource ∈ tree.resources :=
      List.mem_flatMap.2 ⟨service, hservice, List.mem_map_of_mem hresource⟩
    exact .of_resource hctx hss (List.mem_flatMap.2 ⟨site, hsite, hr⟩)
  · rw [List.mem_singleton.1 hr]
    exact .imports

/-! ## Patched sources -/

theorem Tree.map_resources {α : Type} (t : Tree) (f : Node → α) :
    t.resources.map (fun ctx => f ctx.node) = (Node.inServices t.root.children).map f := by
  simp [resources, Node.inServices, Node.childrenOf, List.map_flatMap, Context.push,
    Function.comp_def]

/-- What the answers of a generator make of the resources of a source, in the tree of the patched
source. -/
theorem Patch.exists_remade {source : Text} {tree : Tree} (h : Tree.parse source = .ok tree)
    {width : Int} (hw : 0 < width) {g : Generator} {Q : Request → Prop}
    {R : Definition → Definition → Prop} (hd : Remakes g Q source width.toNat R)
    (hq : ∀ {requests : List Request}, Patch.requests tree width.toNat = .ok requests →
      ∀ r ∈ requests, Q r) {imports : Text}
    (hi : g.imports (Context.root tree.root) = .ok imports) (hc : ClosedImports imports) :
    ∃ patched tree' ds ds', Patch.applied tree g width = .ok patched
      ∧ Tree.parse patched = .ok tree' ∧ List.Forall₂ R ds ds'
      ∧ ∀ (α : Type) (f : Node → α) (F : Definition → α),
        (∀ d before next, f (Definition.node .resourceAccessorDefinition d before next) = F d) →
        tree.resources.map (fun ctx => f ctx.node) = ds.map F
          ∧ tree'.resources.map (fun ctx => f ctx.node) = ds'.map F := by
  obtain ⟨items, tail, hs, hv, hl, ht, rfl⟩ := Tree.exists_of_parse h
  have hsites : Patch.sites (Tree.ofBranches source tail (items.map moduleGrammar.itemBranch))
      width.toNat = .ok (sitesAll ([] : Text).length _) := sites_of_items hv hs width.toNat
  have happlied := applied_of_items hv hs (g := g) hw
  have hrequests := requests_of_sites hsites
  obtain ⟨items', hv', hl', hp, hr⟩ := Phrase.exists_remade hd hv hl hs fun r hr =>
    hq hrequests r (List.mem_append_left _ hr)
  obtain ⟨decls, gap, hdecls⟩ := ClosedImports.exists_imported hc
  obtain ⟨tail', hparse⟩ := hdecls.exists_tree hv' hl' ht rfl
  refine ⟨_, _, moduleResources items, moduleResources items', ?_, hparse,
    moduleResources_of_rel hr, fun α f F hf => ⟨?_, ?_⟩⟩
  · refine happlied.trans ?_
    rw [hp]
    simp only [bind, Except.bind, pure, Except.pure, hi]
  · rw [Tree.map_resources]
    exact map_moduleResources hf items [] tail
  · have hnone : Kind.serviceDeclaration ∉ kinds (decls.map moduleGrammar.itemBranch) := by
      intro hk
      cases hdecls.only _ hk
    rw [Tree.map_resources]
    show (Node.inServices (nodesAll _ _ _)).map f = _
    rw [nodesAll_append, Node.inServices_append, Node.inServices, filter_nodesAll hnone]
    exact map_moduleResources_padAll hf hv' gap _ tail'

end BalMediation
