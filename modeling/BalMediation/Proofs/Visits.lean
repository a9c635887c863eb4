import BalMediation.Proofs.Resources
import BalMediation.Proofs.Spans

/-!
# Visits

The visits to the resources of a tree. A resource accessor stands nowhere but directly in a service,
and a service nowhere but directly in a module, so going down from the module through its services
finds every resource that a walk over the whole tree meets, in the same order and each once
(`Tree.map_snd_visits`).

At a resource, the questions have a context of their own (`Asked`), and the edits answer the
questions one by one (`Patch.exists_answers`). The order of the questions shows in the error of a
generator that fails: it is that of the first question without an answer (`Patch.edits_error_iff`).
-/

namespace BalMediation

open Branch Phrase

/-! ## Where services and resources stand -/

/-- Whether a node is neither a service nor a resource. -/
def Plain (kind : Kind) (_ : Label) (_ : List Branch) : Prop :=
  kind ≠ .serviceDeclaration ∧ kind ≠ .resourceAccessorDefinition

/-- Whether only the outermost nodes of branches can be services or resources. -/
def Shallow (bs : List Branch) : Prop :=
  ∀ b ∈ bs, ∀ kind label cs, b = .node kind label cs → AllIn Plain cs

namespace Branch

variable {P Q : Kind → Label → List Branch → Prop}

mutual

theorem All.imp (h : ∀ {kind label bs}, P kind label bs → Q kind label bs) :
    ∀ {b : Branch}, All P b → All Q b
  | .word w, _ => all_word w
  | .node _ _ _, hb => all_node.2 ⟨h (all_node.1 hb).1, AllIn.imp h (all_node.1 hb).2⟩

theorem AllIn.imp (h : ∀ {kind label bs}, P kind label bs → Q kind label bs) :
    ∀ {bs : List Branch}, AllIn P bs → AllIn Q bs
  | [], _ => allIn_nil
  | _ :: _, hb => allIn_cons.2 ⟨All.imp h (allIn_cons.1 hb).1, AllIn.imp h (allIn_cons.1 hb).2⟩

end

end Branch

theorem holdsBelow_plain : HoldsBelow Plain where
  leaf hk _ := ⟨ne_of_mem_of_not_mem hk (by decide), ne_of_mem_of_not_mem hk (by decide)⟩
  run hk _ := ⟨ne_of_mem_of_not_mem hk (by decide), ne_of_mem_of_not_mem hk (by decide)⟩
  inner hk _ _ := ⟨ne_of_mem_of_not_mem hk (by decide), ne_of_mem_of_not_mem hk (by decide)⟩

namespace Shallow

theorem append {as bs : List Branch} (ha : Shallow as) (hb : Shallow bs) : Shallow (as ++ bs) := by
  intro b hmem
  rcases List.mem_append.1 hmem with hmem | hmem
  · exact ha b hmem
  · exact hb b hmem

theorem of_allIn {bs : List Branch} (h : AllIn Plain bs) : Shallow bs := by
  induction bs with
  | nil => simp [Shallow]
  | cons b bs ih =>
    rw [allIn_cons] at h
    intro c hc kind label cs hcs
    rcases List.mem_cons.1 hc with rfl | hc
    · rw [hcs] at h
      exact (all_node.1 h.1).2
    · exact ih h.2 c hc kind label cs hcs

end Shallow

namespace Phrase

/-- Below a function there is neither a service nor a resource. -/
theorem Definition.allIn_plain (d : Definition) :
    AllIn Plain (d.leading.branches ++ d.function.branches) :=
  Definition.allIn holdsBelow_plain (Signature.all holdsBelow_plain (by simp [Plain])
    fun _ _ => all_node.2 ⟨by simp [Plain], allIn_words _⟩)

/-- A service has resources only among its members. -/
theorem Service.shallow (leading : Leading) (s : Service) :
    Shallow (leading.branches ++ s.branches) := by
  have hitems : Shallow (s.items.map serviceGrammar.itemBranch) := by
    intro b hb kind label cs hcs
    obtain ⟨item, -, rfl⟩ := List.mem_map.1 hb
    rcases item with w | (d | o) <;> cases hcs
    · exact d.allIn_plain
    · exact allIn_words _
  exact (Shallow.of_allIn (leading.allIn holdsBelow_plain)).append
    ((Shallow.of_allIn (s.allIn_head holdsBelow_plain)).append
      (hitems.append (.of_allIn (s.allIn_foot holdsBelow_plain))))

/-- A service has no service in it. -/
theorem Service.allIn_unserved (leading : Leading) (s : Service) :
    AllIn (fun kind _ _ => kind ≠ .serviceDeclaration) (leading.branches ++ s.branches) := by
  have hplain : ∀ {bs : List Branch}, AllIn Plain bs →
      AllIn (fun kind _ _ => kind ≠ .serviceDeclaration) bs := fun h => h.imp fun h => h.1
  have hitems : AllIn (fun kind _ _ => kind ≠ .serviceDeclaration)
      (s.items.map serviceGrammar.itemBranch) := by
    refine allIn_of_forall fun b hb => ?_
    obtain ⟨item, -, rfl⟩ := List.mem_map.1 hb
    rcases item with w | (d | o)
    · exact all_word w
    · refine all_node.2 ⟨?_, hplain d.allIn_plain⟩
      unfold Leading.memberKind
      split <;> simp
    · exact all_node.2 ⟨by simp, allIn_words _⟩
  exact allIn_append.2 ⟨hplain (leading.allIn holdsBelow_plain), allIn_append.2
    ⟨hplain (s.allIn_head holdsBelow_plain), allIn_append.2
      ⟨hitems, hplain (s.allIn_foot holdsBelow_plain)⟩⟩⟩

end Phrase

/-! ## Walks -/

/-- The nodes of a kind, in the order of a walk. -/
def Node.found (kind : Kind) (ns : List Node) : List Node :=
  (walkAll ns).filter (·.kind = kind)

theorem Node.childrenOf_singleton (n : Node) (kind : Kind) :
    n.childrenOf [kind] = n.children.filter (·.kind = kind) := by
  simp [childrenOf]

theorem Node.found_append (kind : Kind) (as bs : List Node) :
    found kind (as ++ bs) = found kind as ++ found kind bs := by
  rw [found, walkAll_append, List.filter_append]
  rfl

theorem Node.found_singleton (kind : Kind) (n : Node) :
    found kind [n] = [n].filter (·.kind = kind) ++ found kind n.children := by
  obtain ⟨k, start, stop, startPoint, stopPoint, value, children⟩ := n
  simp only [found, walkAll, walk, List.append_nil]
  rw [← List.singleton_append, List.filter_append]

theorem Node.filter_walk (kind : Kind) (n : Node) :
    n.walk.filter (·.kind = kind) = found kind [n] := by
  simp [found, walkAll]

section Found

variable {before next : Text} {kind : Kind}

theorem found_eq_nil {P : Kind → Label → List Branch → Prop} {bs : List Branch} (h : AllIn P bs)
    (hk : ∀ label cs, ¬ P kind label cs) : Node.found kind (nodesAll before next bs) = [] := by
  rw [Node.found, List.filter_eq_nil_iff]
  intro n hn hkind
  obtain ⟨k, label, cs, pre, post, hp, -, rfl⟩ := exists_branch bs before next h n hn
  obtain rfl : k = kind := by simpa [nodeOver] using hkind
  exact hk label cs hp

/-- Below shallow branches a walk finds what stands directly there. -/
theorem found_of_shallow {bs : List Branch} (h : Shallow bs)
    (hk : ∀ label cs, ¬ Plain kind label cs) :
    Node.found kind (nodesAll before next bs)
      = (nodesAll before next bs).filter (·.kind = kind) := by
  induction bs generalizing before with
  | nil => simp [Node.found, Node.walkAll]
  | cons b bs ih =>
    have hbs := @ih (before ++ spell b.words) fun c hc => h c (List.mem_cons_of_mem _ hc)
    rw [nodesAll_cons, Node.found_append, List.filter_append, hbs]
    congr 1
    cases b with
    | word w => simp [Node.found, Node.walkAll]
    | node k label cs =>
      have hcs := h _ List.mem_cons_self k label cs rfl
      rw [nodes_node, Node.found_singleton, nodeOver, found_eq_nil hcs hk, List.append_nil]

end Found

/-- What a walk finds below a member of a module: a service only if the member is one, and resources
only directly in it. -/
structure Node.Tiered (n : Node) : Prop where
  services : found .serviceDeclaration n.children = []
  resources : found .resourceAccessorDefinition n.children
    = if n.kind = .serviceDeclaration then n.childrenOf [.resourceAccessorDefinition] else []
  kind : n.kind ≠ .resourceAccessorDefinition

theorem Node.tiered_of_plain {n : Node} {before next : Text} {bs : List Branch}
    (hn : n.children = nodesAll before next bs) (h : AllIn Plain bs)
    (hk : Plain n.kind .none []) : n.Tiered := by
  have hnone : ∀ kind, ¬ Plain kind .none [] → found kind n.children = [] := by
    intro kind hk
    rw [hn]
    exact found_eq_nil h fun _ _ => hk
  exact ⟨hnone _ (by simp [Plain]), by rw [hnone _ (by simp [Plain]), if_neg hk.1], hk.2⟩

/-- Every member of a module is tiered. -/
theorem Phrase.ModuleMember.tiered (m : ModuleMember) {before next : Text} {n : Node}
    (hn : n ∈ nodes before next (moduleGrammar.branch m)) : n.Tiered := by
  cases m with
  | declaration i =>
    rw [moduleGrammar_declaration, Import.branch, nodes_node, List.mem_singleton] at hn
    subst hn
    exact Node.tiered_of_plain rfl (i.allIn holdsBelow_plain) (by simp [Plain, nodeOver])
  | service leading s =>
    rw [moduleGrammar_service, nodes_node, List.mem_singleton] at hn
    subst hn
    refine ⟨found_eq_nil (Service.allIn_unserved leading s) (by simp), ?_, by simp [nodeOver]⟩
    rw [nodeOver, found_of_shallow (Service.shallow leading s) (by simp [Plain]), if_pos rfl,
      Node.childrenOf_singleton]
  | function d =>
    rw [moduleGrammar_function, Definition.branch, nodes_node, List.mem_singleton] at hn
    subst hn
    exact Node.tiered_of_plain rfl d.allIn_plain (by simp [Plain, nodeOver])
  | other o =>
    rw [moduleGrammar_other, Other.branch, nodes_node, List.mem_singleton] at hn
    subst hn
    exact Node.tiered_of_plain rfl (allIn_words _) (by simp [Plain, nodeOver])

/-- The members of a module, one after the other. -/
theorem Node.Tiered.found_all {ns : List Node} (h : ∀ n ∈ ns, n.Tiered) :
    found .serviceDeclaration ns = ns.filter (·.kind = .serviceDeclaration)
      ∧ found .resourceAccessorDefinition ns
        = (ns.filter (·.kind = .serviceDeclaration)).flatMap
          (·.childrenOf [.resourceAccessorDefinition]) := by
  induction ns with
  | nil => exact ⟨rfl, rfl⟩
  | cons n ns ih =>
    obtain ⟨hservices, hresources⟩ := ih fun m hm => h m (List.mem_cons_of_mem _ hm)
    have hn := h n List.mem_cons_self
    rw [← List.singleton_append, found_append, found_append, found_singleton, found_singleton,
      hn.services, hn.resources, hservices, hresources]
    by_cases hk : n.kind = .serviceDeclaration
    · simp [hk]
    · simp [hk, hn.kind]

/-! ## Members -/

namespace Phrase

/-- A node among those of items is the node of a member. -/
theorem Grammar.exists_member {M : Type} {G : Grammar M} {items : List (Item M)}
    {before next : Text} {n : Node} (h : n ∈ nodesAll before next (items.map G.itemBranch)) :
    ∃ front m back, items = front ++ .member m :: back
      ∧ n ∈ nodes (before ++ spell (G.words front)) (gapBefore next (G.words back))
        (G.branch m) := by
  induction items generalizing before with
  | nil => simp at h
  | cons item items ih =>
    rw [List.map_cons, nodesAll_cons, List.mem_append] at h
    rcases h with h | h
    · cases item with
      | semicolon w => simp [itemBranch] at h
      | member m => exact ⟨[], m, items, rfl, by simpa [Grammar.words, itemBranch] using h⟩
    · obtain ⟨front, m, back, rfl, hm⟩ := ih h
      exact ⟨item :: front, m, back, rfl, by simpa [Grammar.words] using hm⟩

theorem Service.exists_resource {s : Service} {rest : List Lexeme} (h : s.Valid rest)
    {leading : Leading} {before next : Text} {n : Node}
    (hn : n ∈ nodesAll before next (leading.branches ++ s.branches))
    (hk : n.kind = .resourceAccessorDefinition) :
    ∃ (pre : List Word) (d : Definition) (post : List Word),
      d.Valid Cursor.memberQualifiers .resourceAccessorDefinition
      ∧ leading.words ++ s.words = pre ++ d.words ++ post
      ∧ n = d.node .resourceAccessorDefinition (before ++ spell pre) (gapBefore next post) := by
  have hfoot : Kind.resourceAccessorDefinition ∉ kinds s.footBranches := by
    simp [Service.footBranches, leaf, kinds]
  rw [Service.branches, ← List.append_assoc, nodesAll_append, List.mem_append] at hn
  rcases hn with hn | hn
  · exact absurd (hk ▸ kind_mem_kinds hn) (s.kinds_front leading)
  rw [nodesAll_append, List.mem_append] at hn
  rcases hn with hn | hn
  · obtain ⟨front, m, back, hitems, hn⟩ := Grammar.exists_member hn
    have hv := h.items
    rw [hitems, Grammar.allValid_append] at hv
    have hm := hv.2.2.1
    cases m with
    | function d =>
      rw [serviceGrammar_function, Definition.branch, nodes_node, List.mem_singleton] at hn
      subst hn
      have hd : d.Valid Cursor.memberQualifiers d.leading.memberKind := hm
      have hkind : d.leading.memberKind = .resourceAccessorDefinition := hk
      rw [hkind] at hd
      refine ⟨leading.words ++ s.head ++ serviceGrammar.words front, d,
        serviceGrammar.words back ++ s.foot, hd, ?_, ?_⟩
      · simp [Service.words, hitems, Grammar.words, Grammar.itemBranch]
      · have hwords := d.words_branch .resourceAccessorDefinition
        rw [Definition.branch, words_node] at hwords
        rw [hwords, hkind]
        simp [Definition.node, Service.wordsAll_headBranches, Service.wordsAll_footBranches]
    | other o =>
      rw [serviceGrammar_other, Other.branch, nodes_node, List.mem_singleton] at hn
      subst hn
      cases hk
  · exact absurd (hk ▸ kind_mem_kinds hn) hfoot

/-- A resource of a service among the members of a module, by its words. -/
theorem exists_resource {items : List (Item ModuleMember)} {tail : Text} {service resource : Node}
    (hv : moduleGrammar.AllValid none items [])
    (hmem : service ∈ nodesAll [] tail (items.map moduleGrammar.itemBranch))
    (hk : service.kind = .serviceDeclaration) (hr : resource ∈ service.children)
    (hk' : resource.kind = .resourceAccessorDefinition) :
    ∃ (pre : List Word) (d : Definition) (post : List Word),
      d.Valid Cursor.memberQualifiers .resourceAccessorDefinition
      ∧ moduleGrammar.words items = pre ++ d.words ++ post
      ∧ resource = d.node .resourceAccessorDefinition (spell pre) (gapBefore tail post) := by
  obtain ⟨front, m, back, rfl, hs⟩ := Grammar.exists_member hmem
  have hm := (Grammar.allValid_append.1 hv).2.2.1
  cases m with
  | declaration i =>
    rw [moduleGrammar_declaration, Import.branch, nodes_node, List.mem_singleton] at hs
    subst hs
    cases hk
  | service leading s =>
    rw [moduleGrammar_service, nodes_node, List.mem_singleton] at hs
    subst hs
    obtain ⟨pre, d, post, hd, hwords, rfl⟩ := Service.exists_resource hm.2 hr hk'
    refine ⟨moduleGrammar.words front ++ pre, d, post ++ moduleGrammar.words back, hd, ?_, ?_⟩
    · have hsplit : moduleGrammar.words (front ++ .member (.service leading s) :: back)
          = moduleGrammar.words front ++ (leading.words ++ s.words)
            ++ moduleGrammar.words back := by simp [Grammar.words, Grammar.itemBranch]
      rw [hsplit, hwords]
      simp
    · simp
  | function d =>
    rw [moduleGrammar_function, Definition.branch, nodes_node, List.mem_singleton] at hs
    subst hs
    cases hk
  | other o =>
    rw [moduleGrammar_other, Other.branch, nodes_node, List.mem_singleton] at hs
    subst hs
    cases hk

end Phrase

/-! ## Visits -/

/-- The services of a tree, each with the resources in it, in the order of a walk. -/
def Tree.visits (t : Tree) : List (Node × Node) :=
  (t.root.walk.filter (·.kind = .serviceDeclaration)).flatMap fun s =>
    (s.walk.filter (·.kind = .resourceAccessorDefinition)).map (s, ·)

namespace Tree

variable {source : Text} {tree : Tree}

theorem tiered_of_parse (h : parse source = .ok tree) :
    tree.root.kind = .modulePart ∧ ∀ n ∈ tree.root.children, n.Tiered := by
  obtain ⟨items, tail, -, -, -, -, rfl⟩ := exists_of_parse h
  refine ⟨rfl, fun n hn => ?_⟩
  obtain ⟨front, m, back, -, hn⟩ := Grammar.exists_member hn
  exact m.tiered hn

/-- A walk meets the services that stand directly in the module. -/
theorem walk_services (h : parse source = .ok tree) :
    tree.root.walk.filter (·.kind = .serviceDeclaration)
      = tree.root.childrenOf [.serviceDeclaration] := by
  obtain ⟨hk, ht⟩ := tiered_of_parse h
  rw [Node.filter_walk, Node.found_singleton, (Node.Tiered.found_all ht).1,
    Node.childrenOf_singleton]
  simp [hk]

theorem visits_eq (h : parse source = .ok tree) :
    tree.visits = (tree.root.childrenOf [.serviceDeclaration]).flatMap fun s =>
      (s.childrenOf [.resourceAccessorDefinition]).map (s, ·) := by
  rw [visits, walk_services h]
  refine List.flatMap_congr fun s hs => ?_
  have hs := List.mem_filter.1 hs
  have hkind : s.kind = .serviceDeclaration := by simpa using hs.2
  have htiered := (tiered_of_parse h).2 s hs.1
  rw [Node.filter_walk, Node.found_singleton, htiered.resources, if_pos hkind]
  simp [hkind]

/-- A visit to every resource that a walk meets, in its order. -/
theorem map_snd_visits (h : parse source = .ok tree) :
    tree.visits.map Prod.snd
      = tree.root.walk.filter (·.kind = .resourceAccessorDefinition) := by
  obtain ⟨hk, ht⟩ := tiered_of_parse h
  rw [visits_eq h, Node.filter_walk, Node.found_singleton, (Node.Tiered.found_all ht).2,
    Node.childrenOf_singleton]
  simp [hk, List.map_flatMap, Function.comp_def]

/-- A visit goes to a service of the module and to a resource of the service. -/
theorem kinds_of_mem_visits (h : parse source = .ok tree) {v : Node × Node} (hv : v ∈ tree.visits) :
    v.1 ∈ tree.root.children ∧ v.1.kind = .serviceDeclaration ∧ v.2 ∈ v.1.children
      ∧ v.2.kind = .resourceAccessorDefinition := by
  rw [visits_eq h] at hv
  obtain ⟨s, hs, hv⟩ := List.mem_flatMap.1 hv
  obtain ⟨r, hr, rfl⟩ := List.mem_map.1 hv
  have hs := List.mem_filter.1 hs
  have hr := List.mem_filter.1 hr
  exact ⟨hs.1, by simpa using hs.2, hr.1, by simpa using hr.2⟩

/-- The resource of a visit, by the words of the source. -/
theorem exists_definition (h : parse source = .ok tree) {v : Node × Node} (hv : v ∈ tree.visits) :
    ∃ (pre : List Word) (d : Definition) (post : List Word) (tail : Text),
      source = spell (pre ++ d.words ++ post) ++ tail
      ∧ Lexer.Legible (pre ++ d.words ++ post) tail ∧ Lexer.Trailing tail
      ∧ d.Valid Cursor.memberQualifiers .resourceAccessorDefinition
      ∧ v.2 = d.node .resourceAccessorDefinition (spell pre) (gapBefore tail post) := by
  obtain ⟨hservice, hs, hresource, hr⟩ := kinds_of_mem_visits h hv
  obtain ⟨items, tail, hsource, hvalid, hl, ht, rfl⟩ := exists_of_parse h
  obtain ⟨pre, d, post, hd, hwords, hnode⟩ := exists_resource hvalid hservice hs hresource hr
  rw [hwords] at hsource hl
  exact ⟨pre, d, post, tail, hsource, hl, ht, hd, hnode⟩

end Tree

/-- What comes of pairs, where it is flattened at both levels. -/
theorem exists_groups {ε α β γ : Type} {f : α → List β} {g : α → β → Except ε (List γ)}
    {as : List α} {css : List (List γ)}
    (h : as.mapM (fun a => do
      let bs ← (f a).mapM (g a)
      return bs.flatten) = .ok css) :
    ∃ groups, List.Forall₂ (fun v cs => g v.1 v.2 = .ok cs)
      (as.flatMap fun a => (f a).map (a, ·)) groups ∧ css.flatten = groups.flatten := by
  induction as generalizing css with
  | nil =>
    cases h
    exact ⟨[], .nil, rfl⟩
  | cons a as ih =>
    rw [List.mapM_cons] at h
    obtain ⟨cs, hcs, h⟩ := bind_ok h
    obtain ⟨css, hcss, h⟩ := bind_ok h
    cases h
    obtain ⟨own, hown, hcs⟩ := bind_ok hcs
    cases hcs
    obtain ⟨groups, hgroups, hflat⟩ := ih hcss
    refine ⟨own ++ groups, ?_, by simp [hflat]⟩
    rw [List.flatMap_cons]
    exact List.rel_append (List.forall₂_map_left_iff.2 (forall₂_of_mapM hown)) hgroups

/-- The context of a visit. -/
def Tree.contextOf (t : Tree) (v : Node × Node) : Context :=
  ((Context.root t.root).push v.1).push v.2

/-- The sites of a tree, visit by visit. -/
theorem Patch.exists_siteGroups {source : Text} {tree : Tree} (h : Tree.parse source = .ok tree)
    {width : Nat} {sites : List Site} (hs : Patch.sites tree width = .ok sites) :
    ∃ groups, List.Forall₂ (fun v ss =>
      Patch.resourceSites source width v.2 (tree.contextOf v) = .ok ss) tree.visits groups
      ∧ sites = groups.flatten := by
  rw [Patch.sites, (Tree.tiered_of_parse h).1, Tree.source_of_parse h] at hs
  obtain ⟨sss, hsss, hs⟩ := bind_ok hs
  cases hs
  rw [Tree.visits_eq h]
  exact exists_groups (g := fun s r => Patch.resourceSites source width r (tree.contextOf (s, r)))
    hsss

/-! ## Questions at a resource -/

/-- Whether a context is that of a part of the resource, which is one of the service. -/
structure Context.Inside (service resource signature : Node) (ctx : Context) : Prop where
  service : ctx.service? = some service
  resource : ctx.resource? = some resource
  signature : ctx.signature? = some signature
  depth : ctx.depth = 3

theorem Tree.inside_push (t : Tree) {service resource signature n : Node}
    (hs : service.kind = .serviceDeclaration) (hr : resource.kind = .resourceAccessorDefinition)
    (hsig : resource.firstChild? .functionSignature = some signature)
    (hn : n.kind ≠ .serviceDeclaration ∧ n.kind ≠ .resourceAccessorDefinition) :
    ((t.contextOf (service, resource)).push n).Inside service resource signature := by
  have hresource : ((t.contextOf (service, resource)).push n).resource? = some resource := by
    simp [Context.resource?, Context.nearest?, Context.chain, Tree.contextOf, Context.push, hn, hr]
  refine ⟨?_, hresource, ?_, rfl⟩
  · simp [Context.service?, Context.nearest?, Context.chain, Tree.contextOf, Context.push, hn, hr,
      hs]
  · rw [Context.signature?, hresource, Option.bind_some, hsig]

/-- Whether these are the questions about the return type of a signature: one if there is one. -/
def AskedReturn (signature : Node) (ctx : Context) (calls : List Request) : Prop :=
  match signature.firstChild? .returnTypeDescriptor with
  | none => calls = []
  | some descriptor => ∃ type, descriptor.firstChild? .typeDescriptor = some type
      ∧ calls = [.returnType type ctx]

/-- Whether these are the questions about the body of a resource: two if it is a block. -/
def AskedBody (service resource signature : Node) (calls : List Request) : Prop :=
  match resource.firstChild? .functionBodyBlock with
  | none => calls = []
  | some body => ∃ ctx level, ctx.Inside service resource signature ∧ ctx.node = body
      ∧ calls = [.record ctx level, .block ctx level]

/-- Whether these are the questions asked at a resource of a service, first the one about its
parameters. -/
def Asked (service resource : Node) (calls : List Request) : Prop :=
  ∃ signature ctx returned embedded, resource.firstChild? .functionSignature = some signature
    ∧ ctx.Inside service resource signature
    ∧ calls = .params signature ctx :: (returned ++ embedded)
    ∧ AskedReturn signature ctx returned ∧ AskedBody service resource signature embedded

/-- Whether a site is where its node says: behind the parenthesis that opens the parameters, or at
the insertion point of a block. -/
def Site.Placed (source : Text) : Site → Prop
  | .params offset signature _ =>
    ∃ paren, signature.firstChild? .openParen = some paren ∧ offset = paren.stop
  | .returnType _ _ => True
  | .body offset _ _ ctx =>
    ∃ brace, ctx.node.firstChild? .closeBrace = some brace
      ∧ offset = source.insertionPoint brace.start

namespace Patch

variable {source : Text} {width : Nat} {ctx : Context} {ss : List Site}

theorem signatureSites_cases (source : Text) {signature : Node}
    (h : signatureSites signature ctx = .ok ss) :
    ∃ returned, ss.flatMap Site.requests = .params signature ctx :: returned
      ∧ AskedReturn signature ctx returned ∧ ∀ site ∈ ss, site.Placed source := by
  obtain ⟨paren, hparen, h⟩ := bind_ok h
  have hparen := firstChild?_of_child hparen
  cases hd : signature.firstChild? .returnTypeDescriptor with
  | none =>
    rw [hd] at h
    cases h
    exact ⟨[], rfl, by rw [AskedReturn, hd], by simp [Site.Placed, hparen]⟩
  | some descriptor =>
    rw [hd] at h
    obtain ⟨type, ht, h⟩ := bind_ok h
    cases h
    refine ⟨[.returnType type ctx], rfl, ?_, by simp [Site.Placed, hparen]⟩
    rw [AskedReturn, hd]
    exact ⟨type, firstChild?_of_child ht, rfl⟩

theorem bodySites_cases {body : Node} (h : bodySites source width body ctx = .ok ss)
    (hctx : ctx.node = body) :
    ∃ level, ss.flatMap Site.requests = [.record ctx level, .block ctx level]
      ∧ ∀ site ∈ ss, site.Placed source := by
  obtain ⟨brace, hbrace, h⟩ := bind_ok h
  have hbrace := firstChild?_of_child hbrace
  cases h
  refine ⟨_, rfl, fun site hsite => ?_⟩
  rw [List.mem_singleton.1 hsite]
  exact ⟨brace, by rw [hctx, hbrace], by simp [Text.insertionPoint]⟩

/-- The sites of a resource ask about its parts, each with its own context. -/
theorem asked_of_resourceSites (tree : Tree) {service resource signature : Node}
    (hs : service.kind = .serviceDeclaration) (hr : resource.kind = .resourceAccessorDefinition)
    (hsig : resource.firstChild? .functionSignature = some signature)
    (h : resourceSites source width resource (tree.contextOf (service, resource)) = .ok ss) :
    Asked service resource (ss.flatMap Site.requests) ∧ ∀ site ∈ ss, site.Placed source := by
  have hinside : ∀ {n : Node} {kind : Kind}, resource.firstChild? kind = some n →
      kind ≠ .serviceDeclaration ∧ kind ≠ .resourceAccessorDefinition →
      ((tree.contextOf (service, resource)).push n).Inside service resource signature := by
    intro n kind hn hk
    have hkind : n.kind = kind := by simpa using List.find?_some hn
    exact tree.inside_push hs hr hsig (by rwa [hkind])
  rw [resourceSites_eq, hsig] at h
  obtain ⟨front, hfront, h⟩ := bind_ok h
  obtain ⟨back, hback, h⟩ := bind_ok h
  cases h
  obtain ⟨returned, hcalls, hreturned, hplaced⟩ := signatureSites_cases source hfront
  have hbody : AskedBody service resource signature (back.flatMap Site.requests)
      ∧ ∀ site ∈ back, site.Placed source := by
    unfold AskedBody
    cases hb : resource.firstChild? .functionBodyBlock with
    | none =>
      rw [hb] at hback
      cases hback
      exact ⟨rfl, by simp⟩
    | some body =>
      rw [hb] at hback
      obtain ⟨level, hcalls, hplaced⟩ := bodySites_cases hback rfl
      exact ⟨⟨_, level, hinside hb (by decide), rfl, hcalls⟩, hplaced⟩
  refine ⟨⟨signature, _, returned, _, hsig, hinside hsig (by decide), ?_, hreturned, hbody.1⟩, ?_⟩
  · rw [List.flatMap_append, hcalls, List.cons_append]
  · intro site hsite
    rcases List.mem_append.1 hsite with hsite | hsite
    · exact hplaced site hsite
    · exact hbody.2 site hsite

end Patch

/-! ## Answers -/

/-- Whether an edit puts the answer to a question in its place. In front of a record there may be a
new line. -/
inductive Answers (source : Text) (g : Generator) : Request → Edit → Prop
  | params {signature paren : Node} {ctx : Context} {text : Text} :
      signature.firstChild? .openParen = some paren → g.params signature ctx = .ok text →
      Answers source g (.params signature ctx) (Edit.insert paren.stop text)
  | returnType {type : Node} {ctx : Context} {text : Text} : g.returnType type ctx = .ok text →
      Answers source g (.returnType type ctx) (Edit.replace type.start type.stop text)
  | record {ctx : Context} {level : Nat} {brace : Node} {lead text : Text} :
      ctx.node.firstChild? .closeBrace = some brace → (lead = [] ∨ lead = ['\n']) →
      g.record ctx level = .ok text → Answers source g (.record ctx level)
        (Edit.insert (source.insertionPoint brace.start) (lead ++ text))
  | block {ctx : Context} {level : Nat} {brace : Node} {text : Text} :
      ctx.node.firstChild? .closeBrace = some brace → g.block ctx level = .ok text →
      Answers source g (.block ctx level)
        (Edit.insert (source.insertionPoint brace.start) text)

theorem Site.Placed.answers {source : Text} {g : Generator} {site : Site} (h : site.Placed source)
    {es : List Edit} (he : site.edits g = .ok es) :
    List.Forall₂ (Answers source g) site.requests es := by
  cases site with
  | params offset signature ctx =>
    obtain ⟨paren, hparen, rfl⟩ := h
    obtain ⟨text, htext, he⟩ := bind_ok he
    cases he
    exact .cons (.params hparen htext) .nil
  | returnType type ctx =>
    obtain ⟨text, htext, he⟩ := bind_ok he
    cases he
    exact .cons (.returnType htext) .nil
  | body offset shared level ctx =>
    obtain ⟨brace, hbrace, rfl⟩ := h
    obtain ⟨record, hrecord, he⟩ := bind_ok he
    obtain ⟨block, hblock, he⟩ := bind_ok he
    cases he
    refine .cons (.record hbrace ?_ hrecord) (.cons (.block hbrace hblock) .nil)
    split
    · exact .inr rfl
    · exact .inl rfl

theorem Site.Placed.answers_all {source : Text} {g : Generator} {sites : List Site}
    (h : ∀ site ∈ sites, site.Placed source) {ess : List (List Edit)}
    (he : sites.mapM (Site.edits g) = .ok ess) :
    List.Forall₂ (Answers source g) (sites.flatMap Site.requests) ess.flatten := by
  induction sites generalizing ess with
  | nil =>
    cases he
    exact .nil
  | cons site sites ih =>
    rw [List.mapM_cons] at he
    obtain ⟨es, hes, he⟩ := bind_ok he
    obtain ⟨ess, hess, he⟩ := bind_ok he
    cases he
    exact List.rel_append ((h site List.mem_cons_self).answers hes)
      (ih (fun s hs => h s (List.mem_cons_of_mem _ hs)) hess)

/-! ## Failures -/

/-- Whether one computation fails exactly if the other does, with the same error. -/
def FailAlike {ε α β : Type} (x : Except ε α) (y : Except ε β) : Prop :=
  ∀ e, x = .error e ↔ y = .error e

theorem FailAlike.ok {ε α β : Type} (a : α) (b : β) :
    FailAlike (.ok a : Except ε α) (.ok b : Except ε β) := by
  simp [FailAlike]

theorem FailAlike.map {ε α β : Type} (x : Except ε α) (f : α → β) :
    FailAlike x (x >>= fun a => .ok (f a)) := by
  cases x <;> simp [FailAlike, Bind.bind, Except.bind]

theorem FailAlike.bind {ε α β γ δ : Type} {x : Except ε α} {y : Except ε β}
    {f : α → Except ε γ} {g : β → Except ε δ} (h : FailAlike x y)
    (hf : ∀ a b, FailAlike (f a) (g b)) : FailAlike (x >>= f) (y >>= g) := by
  cases x with
  | error e =>
    obtain rfl := (h e).1 rfl
    simp [FailAlike, Bind.bind, Except.bind]
  | ok a =>
    cases y with
    | error e => cases (h e).2 rfl
    | ok b => exact hf a b

/-- The edits at a site fail as its questions do. -/
theorem Site.failAlike (g : Generator) (site : Site) :
    FailAlike (site.edits g) (site.requests.mapM g.answer) := by
  cases site with
  | params offset signature ctx => exact .bind (fun _ => Iff.rfl) fun _ _ => .ok _ _
  | returnType type ctx => exact .bind (fun _ => Iff.rfl) fun _ _ => .ok _ _
  | body offset shared level ctx =>
    exact .bind (fun _ => Iff.rfl) fun _ _ => .bind (fun _ => Iff.rfl) fun _ _ => .ok _ _

theorem Site.failAlike_all (g : Generator) (sites : List Site) :
    FailAlike (sites.mapM (Site.edits g)) ((sites.flatMap Site.requests).mapM g.answer) := by
  induction sites with
  | nil => exact .ok _ _
  | cons site sites ih =>
    rw [List.mapM_cons, List.flatMap_cons, List.mapM_append]
    exact (site.failAlike g).bind fun _ _ => ih.bind fun _ _ => .ok _ _

namespace Patch

variable {source : Text} {tree : Tree} {width : Int} {g : Generator} {sites : List Site}

/-- The edits fail as the questions do, the one for the imports last. -/
theorem edits_error_iff (hw : 0 < width) (hs : Patch.sites tree width.toNat = .ok sites)
    (e : Error) : Patch.edits tree g width = .error e
      ↔ (sites.flatMap Site.requests ++ [Request.imports (Context.root tree.root)]).mapM g.answer
        = .error e := by
  have himports : FailAlike (g.imports (Context.root tree.root))
      ([Request.imports (Context.root tree.root)].mapM g.answer) := .map _ fun t => [t]
  rw [Patch.edits, if_neg (by omega), hs, List.mapM_append]
  exact (Site.failAlike_all g sites).bind (fun _ _ => himports.bind fun _ _ => .ok _ _) e

/-- The first edit brings in the imports, and the others answer the questions in order. -/
theorem exists_answers (hs : Patch.sites tree width.toNat = .ok sites)
    (hp : ∀ site ∈ sites, site.Placed source) {es : List Edit}
    (h : Patch.edits tree g width = .ok es) :
    ∃ imports rest, g.imports (Context.root tree.root) = .ok imports
      ∧ es = Edit.insert 0 imports :: rest
      ∧ List.Forall₂ (Answers source g) (sites.flatMap Site.requests) rest := by
  unfold Patch.edits at h
  split at h
  · cases h
  · obtain ⟨sites', hs', h⟩ := bind_ok h
    rw [hs] at hs'
    cases hs'
    obtain ⟨ess, hess, h⟩ := bind_ok h
    obtain ⟨imports, himports, h⟩ := bind_ok h
    cases h
    exact ⟨imports, ess.flatten, himports, rfl, Site.Placed.answers_all hp hess⟩

/-- The sites of a source, visit by visit, with the questions asked at them. -/
theorem exists_asked (h : Tree.parse source = .ok tree) (width : Nat) :
    ∃ groups, Patch.sites tree width = .ok groups.flatten
      ∧ List.Forall₂ (fun v ss => Asked v.1 v.2 (ss.flatMap Site.requests)) tree.visits groups
      ∧ ∀ site ∈ groups.flatten, site.Placed source := by
  obtain ⟨sites, hsites⟩ : ∃ sites, Patch.sites tree width = .ok sites := by
    obtain ⟨n, rfl, -, segs, -, -, hsites⟩ := exists_segments h width
    exact ⟨_, hsites⟩
  obtain ⟨groups, hgroups, rfl⟩ := exists_siteGroups h hsites
  have hvisits : List.Forall₂ (fun v ss => Asked v.1 v.2 (ss.flatMap Site.requests)
      ∧ ∀ site ∈ ss, site.Placed source) tree.visits groups := by
    refine ((List.forall₂_and_left _ _).2 ⟨fun v hv => hv, hgroups⟩).imp fun v ss hss => ?_
    obtain ⟨-, hs, -, hr⟩ := Tree.kinds_of_mem_visits h hss.1
    obtain ⟨pre, d, post, tail, -, -, -, -, hnode⟩ := Tree.exists_definition h hss.1
    have hsig := d.child_signature .resourceAccessorDefinition (spell pre) (gapBefore tail post)
    rw [← hnode] at hsig
    exact asked_of_resourceSites tree hs hr hsig hss.2
  refine ⟨groups, hsites, hvisits.imp fun _ _ hv => hv.1, ?_⟩
  intro site hsite
  obtain ⟨ss, hss, hsite⟩ := List.mem_flatten.1 hsite
  obtain ⟨v, -, hv⟩ := exists_left_of_forall₂ hvisits hss
  exact hv.2 site hsite

/-- Every resource is visited once, in the order of a walk, and at each visit the questions have the
context of the resource; the edits answer them in order, behind the insertion of the imports, and
fail as the first of them does that has no answer. -/
theorem requests_of_visits (h : Tree.parse source = .ok tree) (hw : 0 < width) :
    tree.visits.map Prod.snd = tree.root.walk.filter (·.kind = .resourceAccessorDefinition)
      ∧ ∃ groups : List (List Request),
        List.Forall₂ (fun v calls => Asked v.1 v.2 calls) tree.visits groups
        ∧ Patch.requests tree width.toNat
          = .ok (groups.flatten ++ [.imports (Context.root tree.root)])
        ∧ ∀ g : Generator,
          (∀ e, Patch.edits tree g width = .error e ↔
            (groups.flatten ++ [Request.imports (Context.root tree.root)]).mapM g.answer
              = .error e)
          ∧ ∀ es, Patch.edits tree g width = .ok es → ∃ imports rest,
            g.imports (Context.root tree.root) = .ok imports ∧ es = Edit.insert 0 imports :: rest
            ∧ List.Forall₂ (Answers source g) groups.flatten rest := by
  obtain ⟨groups, hsites, hasked, hplaced⟩ := exists_asked h width.toNat
  have hflat : (groups.map (·.flatMap Site.requests)).flatten
      = groups.flatten.flatMap Site.requests := by
    rw [← List.flatMap_def, List.flatten_eq_flatMap, List.flatMap_assoc]
    rfl
  refine ⟨Tree.map_snd_visits h, groups.map (·.flatMap Site.requests),
    List.forall₂_map_right_iff.2 hasked, ?_, fun g => ⟨fun e => ?_, fun es hes => ?_⟩⟩
  · rw [Patch.requests, hsites, hflat]
    rfl
  · rw [hflat]
    exact edits_error_iff hw hsites e
  · rw [hflat]
    exact exists_answers hsites hplaced hes

/-- Of two services, one has a resource with a type and a block and one with neither; a function
beside them is not visited. -/
theorem requests_of_visits_services :
    let source : Text := ("function f() \x7b \x7d service / on x \x7b "
      ++ "resource function get a(int b) returns c \x7b \x7d "
      ++ "resource function get d() => 1; \x7d service on y \x7b \x7d").toList
    ∃ (tree : Tree) (groups : List (List Request)), Tree.parse source = .ok tree
      ∧ tree.visits.length = 2
      ∧ List.Forall₂ (fun v calls => Asked v.1 v.2 calls) tree.visits groups
      ∧ groups.flatten.length = 5
      ∧ Patch.requests tree 4 = .ok (groups.flatten ++ [.imports (Context.root tree.root)]) := by
  intro source
  have hrun : ((Tree.parse source).toOption.any fun tree => tree.visits.length = 2
      && (Patch.requests tree 4).toOption.any (·.length = 6)) = true := by
    simp only [source]
    rw [String.toList_append, String.toList_append, String.toList_ofList, String.toList_ofList,
      String.toList_ofList]
    decide +kernel
  obtain ⟨tree, hparse, hrun⟩ := exists_of_any hrun
  rw [Bool.and_eq_true, decide_eq_true_eq] at hrun
  obtain ⟨requests, hrequests, hlen⟩ := exists_of_any hrun.2
  obtain ⟨-, groups, hasked, hgroups, -⟩ :=
    requests_of_visits hparse (show (0 : Int) < 4 by decide)
  refine ⟨tree, groups, hparse, hrun.1, hasked, ?_, hgroups⟩
  rw [show (4 : Int).toNat = 4 from rfl, hrequests] at hgroups
  cases hgroups
  simpa using hlen

end Patch

end BalMediation
