import BalMediation.Proofs.Plans

/-!
# Batches

The edits that mediate a source, or a part of its tree, weave the whole of it, so the batch can
always be applied (`woven_edits`). A generator that keeps return types only adds to the source: what
comes out is the source cut at a few points with the answers in between (`woven_cuts`).
-/

namespace BalMediation

open Segment Phrase

/-- The questions of segments, in order. -/
def Segment.requests : Segment → List Request
  | kept _ => []
  | params signature ctx => [.params signature ctx]
  | returnType type ctx _ => [.returnType type ctx]
  | body _ level ctx => [.record ctx level, .block ctx level]

theorem Segment.requests_sitesAll (o : Nat) (segs : List Segment) :
    (sitesAll o segs).flatMap Site.requests = segs.flatMap requests := by
  induction segs generalizing o with
  | nil => rfl
  | cons s segs ih => cases s <;> simp [sitesAll, sites, requests, Site.requests, ih]

/-- Segments come out only if all of their questions are answered. -/
theorem Segment.exists_answer {g : Generator} {segs : List Segment} {new : Text}
    (h : patchedAll g segs = .ok new) :
    ∀ r ∈ segs.flatMap requests, ∃ t, g.answer r = .ok t := by
  induction segs generalizing new with
  | nil => simp
  | cons s segs ih =>
    obtain ⟨t, ht, h⟩ := bind_ok h
    obtain ⟨u, hu, -⟩ := bind_ok h
    intro r hr
    rw [List.flatMap_cons, List.mem_append] at hr
    rcases hr with hr | hr
    · cases s with
      | kept t => cases hr
      | params signature ctx =>
        rw [List.mem_singleton.1 hr]
        exact ⟨t, ht⟩
      | returnType type ctx u =>
        rw [List.mem_singleton.1 hr]
        exact ⟨t, ht⟩
      | body shared level ctx =>
        obtain ⟨record, hrecord, ht⟩ := bind_ok ht
        obtain ⟨block, hblock, -⟩ := bind_ok ht
        rcases List.mem_cons.1 hr with rfl | hr
        · exact ⟨record, hrecord⟩
        · rw [List.mem_singleton.1 hr]
          exact ⟨block, hblock⟩
    · exact ih hu r hr

/-- The source of a tree with the edits that mediate it. -/
def Patch.applied (tree : Tree) (g : Generator) (width : Int) : Except Error Text := do
  let es ← Patch.edits tree g width
  (Edit.apply tree.source es).mapError .edit

section Batch

variable {source : Text} {n : Node} {g : Generator} {width : Int} {before after : Text}
  {segs : List Segment}

theorem requests_of_sites
    (hsites : Patch.sites ⟨source, n⟩ width.toNat = .ok (sitesAll before.length segs)) :
    Patch.requests ⟨source, n⟩ width.toNat
      = .ok (segs.flatMap requests ++ [.imports (Context.root n)]) := by
  rw [Patch.requests, hsites, ← requests_sitesAll before.length]
  rfl

/-- The edits of a tree weave the answers into the segments, and the imports in front. -/
theorem woven_edits (hs : source = before ++ textAll segs ++ after) (hf : FitAll before.length segs)
    (hsites : Patch.sites ⟨source, n⟩ width.toNat = .ok (sitesAll before.length segs))
    {es : List Edit} (h : Patch.edits ⟨source, n⟩ g width = .ok es) :
    ∃ imports new, g.imports (Context.root n) = .ok imports ∧ patchedAll g segs = .ok new
      ∧ Edit.Woven 0 source es (imports ++ (before ++ new ++ after)) := by
  unfold Patch.edits at h
  split at h
  · cases h
  · obtain ⟨sites, hsites', h⟩ := bind_ok h
    rw [hsites] at hsites'
    cases hsites'
    obtain ⟨ess, hess, h⟩ := bind_ok h
    obtain ⟨imports, himports, h⟩ := bind_ok h
    cases h
    obtain ⟨new, hnew, hw⟩ := woven_segments hf hess
    refine ⟨imports, new, himports, hnew, ?_⟩
    have hall : Edit.Woven 0 (before ++ textAll segs ++ after) ([] ++ ess.flatten ++ [])
        (before ++ new ++ after) := by
      refine ((Edit.Woven.keep 0 before).append ?_).append (.keep _ after)
      rw [Nat.zero_add]
      exact hw
    rw [← hs, List.nil_append, List.append_nil] at hall
    exact (Edit.Woven.inserted 0 imports).append hall

/-- Only the generator fails. -/
theorem edits_error (hw : 0 < width)
    (hsites : Patch.sites ⟨source, n⟩ width.toNat = .ok (sitesAll before.length segs))
    {e : Error} (h : Patch.edits ⟨source, n⟩ g width = .error e) :
    ∃ r ∈ segs.flatMap requests ++ [.imports (Context.root n)], g.answer r = .error e := by
  rw [Patch.edits, if_neg (by omega)] at h
  rcases bind_error h with h | ⟨sites, hs, h⟩
  · rw [hsites] at h
    cases h
  · rw [hsites] at hs
    cases hs
    rcases bind_error h with h | ⟨ess, -, h⟩
    · obtain ⟨s, hs, he⟩ := mapM_error h
      obtain ⟨r, hr, he⟩ := Site.edits_error he
      refine ⟨r, List.mem_append_left _ ?_, he⟩
      rw [← requests_sitesAll before.length]
      exact List.mem_flatMap.2 ⟨s, hs, hr⟩
    · rcases bind_error h with h | ⟨imports, -, h⟩
      · exact ⟨_, List.mem_append_right _ (List.mem_singleton.2 rfl), h⟩
      · cases h

theorem exists_edits (hw : 0 < width)
    (hsites : Patch.sites ⟨source, n⟩ width.toNat = .ok (sitesAll before.length segs))
    (ha : ∀ r ∈ segs.flatMap requests ++ [.imports (Context.root n)], ∃ f, g.answer r = .ok f) :
    ∃ es, Patch.edits ⟨source, n⟩ g width = .ok es := by
  cases hes : Patch.edits ⟨source, n⟩ g width with
  | ok es => exact ⟨es, rfl⟩
  | error e =>
    obtain ⟨r, hr, he⟩ := edits_error hw hsites hes
    obtain ⟨f, hf⟩ := ha r hr
    rw [hf] at he
    cases he

/-- What comes of a whole source is its segments with the answers in place, behind the imports. -/
theorem applied_eq (hw : 0 < width) (hs : source = textAll segs) (hf : FitAll 0 segs)
    (hsites : Patch.sites ⟨source, n⟩ width.toNat = .ok (sitesAll 0 segs)) :
    Patch.applied ⟨source, n⟩ g width = (do
      let new ← patchedAll g segs
      let imports ← g.imports (Context.root n)
      return imports ++ new) := by
  unfold Patch.applied
  cases hes : Patch.edits ⟨source, n⟩ g width with
  | ok es =>
    have htext : source = [] ++ textAll segs ++ [] := by simpa using hs
    obtain ⟨imports, new, himports, hnew, hwoven⟩ := woven_edits htext hf hsites hes
    have happly : Edit.apply source es = .ok (imports ++ new) := by simpa using hwoven.apply
    simp only [himports, hnew, happly, bind, Except.bind, pure, Except.pure, Except.mapError]
  | error e =>
    rw [Patch.edits, if_neg (by omega), hsites] at hes
    have hes : ((sitesAll 0 segs).mapM (Site.edits g) >>= _) = Except.error e := hes
    rcases bind_error hes with hess | ⟨ess, hess, hes⟩
    · rw [patchedAll_error hf hess]
      rfl
    · obtain ⟨new, hnew, -⟩ := woven_segments hf hess
      rw [hnew]
      rcases bind_error hes with himports | ⟨imports, -, hes⟩
      · rw [himports]
        rfl
      · cases hes

end Batch

theorem exists_segments {source : Text} {tree : Tree} (h : Tree.parse source = .ok tree)
    (width : Nat) :
    ∃ n, tree = ⟨source, n⟩ ∧ n.kind = .modulePart ∧ ∃ segs, source = textAll segs ∧ FitAll 0 segs
      ∧ Patch.sites ⟨source, n⟩ width = .ok (sitesAll 0 segs) := by
  obtain ⟨items, tail, hs, hv, -, -, rfl⟩ := Tree.exists_of_parse h
  refine ⟨_, rfl, rfl, _, ?_, fitAll_moduleSegments hv tail width _,
    sites_of_items hv hs width⟩
  rw [textAll_moduleSegments hv, hs]

/-- Code goes into a source exactly if all questions are answered. -/
theorem Patch.exists_applied_iff {source : Text} {tree : Tree} (h : Tree.parse source = .ok tree)
    {width : Int} (hw : 0 < width) : ∃ requests, Patch.requests tree width.toNat = .ok requests
      ∧ ∀ g : Generator, (∃ t, Patch.applied tree g width = .ok t)
        ↔ ∀ r ∈ requests, ∃ t, g.answer r = .ok t := by
  obtain ⟨n, rfl, -, segs, hs, hf, hsites⟩ := exists_segments h width.toNat
  have hsites : Patch.sites ⟨source, n⟩ width.toNat
      = .ok (sitesAll ([] : Text).length segs) := hsites
  have hs : source = [] ++ textAll segs ++ [] := by simpa using hs
  refine ⟨_, requests_of_sites hsites, fun g => ⟨?_, fun ha => ?_⟩⟩
  · rintro ⟨t, ht⟩ r hr
    obtain ⟨es, hes, -⟩ := bind_ok ht
    obtain ⟨imports, new, himports, hnew, -⟩ := woven_edits hs hf hsites hes
    rcases List.mem_append.1 hr with hr | hr
    · exact exists_answer hnew r hr
    · rw [List.mem_singleton.1 hr]
      exact ⟨imports, himports⟩
  · obtain ⟨es, hes⟩ := exists_edits hw hsites ha
    obtain ⟨imports, new, -, -, hwoven⟩ := woven_edits hs hf hsites hes
    refine ⟨imports ++ ([] ++ new ++ []), ?_⟩
    rw [Patch.applied, hes]
    exact congrArg (Except.mapError Error.edit) hwoven.apply

/-- What comes of a source that items spell. -/
theorem applied_of_items {items : List (Item ModuleMember)} {source tail : Text}
    (hv : moduleGrammar.AllValid none items [])
    (hs : source = spell (moduleGrammar.words items) ++ tail) {g : Generator} {width : Int}
    (hw : 0 < width) :
    let n := (Tree.ofBranches source tail (items.map moduleGrammar.itemBranch)).root
    Patch.applied ⟨source, n⟩ g width = (do
      let new ← patchedAll g (moduleSegments width.toNat (Context.root n) tail items)
      let imports ← g.imports (Context.root n)
      return imports ++ new) := by
  intro n
  have htext := textAll_moduleSegments hv tail width.toNat (Context.root n)
  exact applied_eq hw (hs.trans htext.symm) (fitAll_moduleSegments hv tail _ _)
    (sites_of_items hv hs width.toNat)

/-- Whatever node of the tree of a source is taken as the root, the questions are found, and either
an answer fails or the edits lie in the source, in order and without conflict, and can be
applied. -/
theorem Patch.edits_applicable {source : Text} {tree : Tree} (h : Tree.parse source = .ok tree)
    {n : Node} (hn : n ∈ tree.root.walk) (g : Generator) {width : Int} (hw : 0 < width) :
    ∃ requests, Patch.requests ⟨source, n⟩ width.toNat = .ok requests
      ∧ match Patch.edits ⟨source, n⟩ g width with
        | .ok es => (∀ e ∈ es, e.inRange source.length = true)
          ∧ es.Pairwise (fun a b => Edit.le a b = true)
          ∧ es.Pairwise (fun a b => ¬ Edit.Conflict a b)
          ∧ ∃ new, Edit.apply source es = .ok new
        | .error e => ∃ r ∈ requests, g.answer r = .error e := by
  obtain ⟨before, segs, after, hs, hf, hsites⟩ := planned_of_walk h n hn width.toNat
  refine ⟨_, requests_of_sites hsites, ?_⟩
  split
  · rename_i es hes
    obtain ⟨imports, new, -, -, hwoven⟩ := woven_edits hs hf hsites hes
    exact ⟨hwoven.inRange, hwoven.sorted, hwoven.ordered.imp Edit.Woven.not_conflict_of_ordered,
      _, hwoven.apply⟩
  · rename_i e he
    exact edits_error hw hsites he

/-- A generator that gives the same answers everywhere. -/
def Generator.constant (imports params returnType record block : String) : Generator where
  imports _ := .ok imports.toList
  params _ _ := .ok params.toList
  returnType _ _ := .ok returnType.toList
  record _ _ := .ok record.toList
  block _ _ := .ok block.toList

theorem Patch.edits_applicable_resource :
    let source :=
      "service / on x \x7b resource function get a(int b) returns c \x7b \x7d \x7d".toList
    let g := Generator.constant "import d;\n" "int e, " "f" " g();\n" ""
    ∃ tree n es, Tree.parse source = .ok tree ∧ n ∈ tree.root.walk
      ∧ n.kind = .resourceAccessorDefinition ∧ Patch.edits ⟨source, n⟩ g 4 = .ok es
      ∧ es.length = 5 ∧ es.Pairwise (fun a b => ¬ Edit.Conflict a b)
      ∧ ∃ new, Edit.apply source es = .ok new := by
  intro source g
  have hrun : ((Tree.parse source).toOption.any fun tree =>
      (tree.root.walk.find? (·.kind = .resourceAccessorDefinition)).any fun n =>
        (Patch.edits ⟨source, n⟩ g 4).toOption.any (·.length = 5)) = true := by
    simp only [source]
    rw [String.toList_ofList]
    decide +kernel
  obtain ⟨tree, hparse, hrun⟩ := exists_of_any hrun
  obtain ⟨n, hn, hrun⟩ := (Option.any_eq_true _ _).1 hrun
  obtain ⟨es, hedits, hlen⟩ := exists_of_any hrun
  obtain ⟨rs, -, happ⟩ := Patch.edits_applicable hparse (List.mem_of_find?_eq_some hn) g
    (show (0 : Int) < 4 by decide)
  rw [hedits] at happ
  exact ⟨tree, n, es, hparse, List.mem_of_find?_eq_some hn, by simpa using List.find?_some hn,
    hedits, by simpa using hlen, happ.2.2⟩

/-! ## Cuts -/

/-- The text from offset `o` on, with a fragment in front of each of some offsets. -/
def Text.cutAt (source : Text) (o : Nat) : List (Nat × Text) → Text
  | [] => source.drop o
  | (i, t) :: cuts => source.slice o i ++ t ++ cutAt source i cuts

theorem Text.cutAt_eq_splice (source : Text) (o : Nat) (cuts : List (Nat × Text)) :
    source.cutAt o cuts = Edit.splice source o (cuts.map fun c => Edit.insert c.1 c.2) := by
  induction cuts generalizing o with
  | nil => rfl
  | cons c cuts ih => simp [cutAt, Edit.splice, Edit.insert, Edit.stop, ih]

/-- Cutting a text and putting nothing in gives it back. -/
theorem Text.cutAt_empty (source : Text) {o : Nat} {cuts : List (Nat × Text)}
    (hs : ((o, []) :: cuts).Pairwise fun a b => a.1 ≤ b.1) (he : ∀ c ∈ cuts, c.2 = []) :
    source.cutAt o cuts = source.drop o := by
  induction cuts generalizing o with
  | nil => rfl
  | cons c cuts ih =>
    obtain ⟨i, t⟩ := c
    have ht : t = [] := he (i, t) List.mem_cons_self
    subst ht
    have hle : o ≤ i := (List.pairwise_cons.1 hs).1 (i, []) List.mem_cons_self
    rw [cutAt, ih hs.of_cons fun c hc => he c (List.mem_cons_of_mem _ hc), Text.slice,
      List.append_nil]
    nth_rewrite 2 [← List.take_append_drop (i - o) (source.drop o)]
    rw [List.drop_drop, show o + (i - o) = i by omega]

/-- The point at which code goes into a block that is closed by the brace at this offset. -/
def Text.insertionPoint (source : Text) (brace : Nat) : Nat :=
  if source.lineStart brace + source.lineIndent brace = brace then source.lineStart brace
  else brace

/-- The points of a resource at which code goes in: behind the parenthesis that opens its
parameters, and in its body if that is a block. -/
def Node.resourcePoints (source : Text) (resource : Node) : List Nat :=
  ((resource.firstChild? .functionSignature).bind (·.firstChild? .openParen)).toList.map (·.stop)
    ++ ((resource.firstChild? .functionBodyBlock).bind (·.firstChild? .closeBrace)).toList.map
      fun brace => source.insertionPoint brace.start

/-- The points of a module at which code goes in. -/
def Node.points (source : Text) (module : Node) : List Nat :=
  (module.childrenOf [.serviceDeclaration]).flatMap fun service =>
    (service.childrenOf [.resourceAccessorDefinition]).flatMap (resourcePoints source)

/-- The cut at a site, with the answers to its questions; a return type is no cut. -/
def Site.cut? (answer : Request → Text) : Site → Option (Nat × Text)
  | params offset signature ctx => some (offset, answer (.params signature ctx))
  | returnType _ _ => none
  | body offset shared level ctx =>
    let record := answer (.record ctx level)
    let block := answer (.block ctx level)
    some (offset, (if shared && !(record.isEmpty && block.isEmpty) then ['\n'] else [])
      ++ record ++ block)

section Points

variable (answer : Request → Text)

/-- The offsets of the cuts at sites. -/
def offsets (sites : List Site) : List Nat :=
  (sites.filterMap (Site.cut? answer)).map Prod.fst

@[simp] theorem offsets_append (as bs : List Site) :
    offsets answer (as ++ bs) = offsets answer as ++ offsets answer bs := by
  simp [offsets]

theorem firstChild?_of_child {n c : Node} {kind : Kind} (h : Patch.child n kind = .ok c) :
    n.firstChild? kind = some c := by
  unfold Patch.child at h
  split at h
  · cases h
    assumption
  · cases h

theorem offsets_signatureSites {signature : Node} {ctx : Context} {ss : List Site}
    (h : Patch.signatureSites signature ctx = .ok ss) :
    offsets answer ss = (signature.firstChild? .openParen).toList.map (·.stop) := by
  obtain ⟨paren, hparen, h⟩ := bind_ok h
  rw [firstChild?_of_child hparen]
  split at h
  · cases h
    rfl
  · obtain ⟨type, -, h⟩ := bind_ok h
    cases h
    rfl

theorem offsets_bodySites {source : Text} {width : Nat} {body : Node} {ctx : Context}
    {ss : List Site} (h : Patch.bodySites source width body ctx = .ok ss) :
    offsets answer ss = (body.firstChild? .closeBrace).toList.map fun brace =>
      source.insertionPoint brace.start := by
  obtain ⟨brace, hbrace, h⟩ := bind_ok h
  cases h
  rw [firstChild?_of_child hbrace]
  rfl

theorem resourceSites_eq (source : Text) (width : Nat) (resource : Node) (ctx : Context) :
    Patch.resourceSites source width resource ctx = (do
      let front ← ((resource.firstChild? .functionSignature).map fun signature =>
        Patch.signatureSites signature (ctx.push signature)).getD (.ok [])
      let back ← ((resource.firstChild? .functionBodyBlock).map fun body =>
        Patch.bodySites source width body (ctx.push body)).getD (.ok [])
      return front ++ back) := by
  unfold Patch.resourceSites
  cases resource.firstChild? .functionSignature <;>
    cases resource.firstChild? .functionBodyBlock <;> rfl

theorem offsets_resourceSites {source : Text} {width : Nat} {resource : Node} {ctx : Context}
    {ss : List Site} (h : Patch.resourceSites source width resource ctx = .ok ss) :
    offsets answer ss = resource.resourcePoints source := by
  rw [resourceSites_eq] at h
  obtain ⟨front, hfront, h⟩ := bind_ok h
  obtain ⟨back, hback, h⟩ := bind_ok h
  cases h
  rw [offsets_append, Node.resourcePoints]
  congr 1
  · cases hs : resource.firstChild? .functionSignature with
    | none =>
      rw [hs] at hfront
      cases hfront
      rfl
    | some signature =>
      rw [hs] at hfront
      exact offsets_signatureSites answer hfront
  · cases hb : resource.firstChild? .functionBodyBlock with
    | none =>
      rw [hb] at hback
      cases hback
      rfl
    | some body =>
      rw [hb] at hback
      exact offsets_bodySites answer hback

theorem offsets_mapM {f : Node → Except Error (List Site)} {points : Node → List Nat}
    (hf : ∀ {n : Node} {ss : List Site}, f n = .ok ss → offsets answer ss = points n)
    {ns : List Node} {sss : List (List Site)} (h : ns.mapM f = .ok sss) :
    offsets answer sss.flatten = ns.flatMap points := by
  induction ns generalizing sss with
  | nil =>
    cases h
    rfl
  | cons n ns ih =>
    rw [List.mapM_cons] at h
    obtain ⟨ss, hss, h⟩ := bind_ok h
    obtain ⟨sss, hsss, h⟩ := bind_ok h
    cases h
    rw [List.flatten_cons, offsets_append, hf hss, ih hsss, List.flatMap_cons]

/-- Code goes in at the points of the module. -/
theorem offsets_moduleSites {source : Text} {width : Nat} {module : Node} {ctx : Context}
    {ss : List Site} (h : Patch.moduleSites source width module ctx = .ok ss) :
    offsets answer ss = module.points source := by
  obtain ⟨sss, hsss, h⟩ := bind_ok h
  cases h
  refine offsets_mapM answer (fun hs => ?_) hsss
  obtain ⟨rss, hrss, hs⟩ := bind_ok hs
  cases hs
  exact offsets_mapM answer (fun hr => offsets_resourceSites answer hr) hrss

end Points

/-- Where return types are kept, what comes of segments is their text with the answers at the
cuts. -/
theorem woven_cuts {g : Generator} {answer : Request → Text} {segs : List Segment}
    (ha : ∀ r ∈ segs.flatMap requests, g.answer r = .ok (answer r))
    (hk : ∀ type ctx, .returnType type ctx ∈ segs.flatMap requests →
      answer (.returnType type ctx) = type.text)
    {o : Nat} (hf : FitAll o segs) :
    ∃ new, patchedAll g segs = .ok new
      ∧ Edit.Woven o (textAll segs) (((sitesAll o segs).filterMap (Site.cut? answer)).map
        fun c => Edit.insert c.1 c.2) new := by
  induction segs generalizing o with
  | nil => exact ⟨[], rfl, .keep o []⟩
  | cons s segs ih =>
    obtain ⟨hfs, hf⟩ := hf
    obtain ⟨new, hnew, hw⟩ := ih
      (fun r hr => ha r (by rw [List.flatMap_cons]; exact List.mem_append_right _ hr))
      (fun type ctx hr => hk type ctx (by rw [List.flatMap_cons]; exact List.mem_append_right _ hr))
      hf
    have hs : ∀ r ∈ s.requests, g.answer r = .ok (answer r) := fun r hr =>
      ha r (by rw [List.flatMap_cons]; exact List.mem_append_left _ hr)
    rw [sitesAll, List.filterMap_append, List.map_append, textAll_cons]
    cases s with
    | kept t =>
      exact ⟨t ++ new, patchedAll_cons rfl hnew, (Edit.Woven.keep o t).append hw⟩
    | params signature ctx =>
      have hp : g.params signature ctx = _ := hs _ (List.mem_singleton.2 rfl)
      exact ⟨_, patchedAll_cons hp hnew, (Edit.Woven.inserted o _).append hw⟩
    | returnType type ctx t =>
      have hp : g.returnType type ctx = _ := hs _ (List.mem_singleton.2 rfl)
      have ht : answer (.returnType type ctx) = t := by
        rw [hk type ctx (by simp [requests]), Node.text, hfs.2.2]
        rfl
      rw [ht] at hp
      exact ⟨t ++ new, patchedAll_cons hp hnew, (Edit.Woven.keep o t).append hw⟩
    | body shared level ctx =>
      have hr : g.record ctx level = _ := hs _ List.mem_cons_self
      have hb : g.block ctx level = _ := hs _ (List.mem_cons_of_mem _ (List.mem_singleton.2 rfl))
      refine ⟨_ ++ new, ?_, (Edit.Woven.inserted o _).append hw⟩
      simp [patchedAll, patched, lead, hr, hb, hnew, bind, Except.bind, pure, Except.pure]

theorem woven_cuts_sorted {source new : Text} {cuts : List (Nat × Text)}
    (h : Edit.Woven 0 source (cuts.map fun c => Edit.insert c.1 c.2) new) :
    cuts.Pairwise (fun a b => a.1 ≤ b.1) ∧ (∀ c ∈ cuts, c.1 ≤ source.length)
      ∧ source.cutAt 0 cuts = new := by
  refine ⟨?_, ?_, ?_⟩
  · refine (List.pairwise_map.1 h.ordered).imp fun hab => ?_
    simp only [Edit.insert, Edit.stop] at hab
    omega
  · intro c hc
    have hin := (h.within _ (List.mem_map_of_mem hc)).2.2
    simp only [Edit.insert, Edit.stop] at hin
    omega
  · have hsplice := h.splice [] [] [] rfl (by simp)
    simp only [List.nil_append, List.append_nil, Nat.zero_add] at hsplice
    rw [Text.cutAt_eq_splice, hsplice]
    simp [Edit.splice]

/-- Where return types are kept, the patched text is the source cut at offset 0 and at the points of
the module, with the answers at the cuts; if these are empty it is the source. -/
theorem Patch.patched_eq_cutAt {source : Text} {tree : Tree} (h : Tree.parse source = .ok tree)
    {width : Int} (hw : 0 < width) :
    ∃ sites, Patch.sites tree width.toNat = .ok sites
      ∧ ∃ requests, Patch.requests tree width.toNat = .ok requests
      ∧ ∀ (g : Generator) (answer : Request → Text),
        (∀ r ∈ requests, g.answer r = .ok (answer r)) →
        (∀ type ctx, .returnType type ctx ∈ requests →
          answer (.returnType type ctx) = type.text) →
        ∃ es cuts, Patch.edits tree g width = .ok es
          ∧ cuts = (0, answer (.imports (Context.root tree.root)))
            :: sites.filterMap (Site.cut? answer)
          ∧ cuts.map Prod.fst = 0 :: tree.root.points source
          ∧ cuts.Pairwise (fun a b => a.1 ≤ b.1) ∧ (∀ c ∈ cuts, c.1 ≤ source.length)
          ∧ Edit.apply source es = .ok (source.cutAt 0 cuts)
          ∧ ((∀ c ∈ cuts, c.2 = []) → Edit.apply source es = .ok source) := by
  obtain ⟨n, rfl, hkind, segs, hs, hf, hsites⟩ := exists_segments h width.toNat
  have hsites : Patch.sites ⟨source, n⟩ width.toNat
      = .ok (sitesAll ([] : Text).length segs) := hsites
  have hs : source = [] ++ textAll segs ++ [] := by simpa using hs
  refine ⟨_, hsites, _, requests_of_sites hsites, fun g answer ha hk => ?_⟩
  obtain ⟨new, hnew, hcuts⟩ := woven_cuts
    (fun r hr => ha r (List.mem_append_left _ hr))
    (fun type ctx hr => hk type ctx (List.mem_append_left _ hr)) hf
  have himports : g.imports (Context.root n) = .ok (answer (.imports (Context.root n))) :=
    ha _ (List.mem_append_right _ (List.mem_singleton.2 rfl))
  obtain ⟨es, hes⟩ := exists_edits hw hsites fun r hr => ⟨_, ha r hr⟩
  obtain ⟨imports, new', himports', hnew', hwoven⟩ := woven_edits hs hf hsites hes
  rw [himports] at himports'
  cases himports'
  rw [hnew] at hnew'
  cases hnew'
  have hall : Edit.Woven 0 source (((0, answer (.imports (Context.root n)))
      :: (sitesAll 0 segs).filterMap (Site.cut? answer)).map fun c => Edit.insert c.1 c.2)
      (answer (.imports (Context.root n)) ++ new) := by
    have := (Edit.Woven.inserted 0 (answer (.imports (Context.root n)))).append hcuts
    rwa [List.nil_append, show textAll segs = source by simpa using hs.symm] at this
  obtain ⟨hsorted, hbound, hcut⟩ := woven_cuts_sorted hall
  have happly := hwoven.apply
  rw [List.nil_append, List.append_nil, ← hcut] at happly
  refine ⟨es, _, hes, rfl, ?_, hsorted, hbound, happly, fun hempty => ?_⟩
  · have hmodule : Patch.sites ⟨source, n⟩ width.toNat
        = Patch.moduleSites source width.toNat n (Context.root n) := by
      simp only [Patch.sites, hkind]
    rw [List.map_cons]
    congr 1
    exact offsets_moduleSites answer (hmodule.symm.trans hsites)
  · have hsame := Text.cutAt_empty source
      (List.pairwise_cons.2 ⟨fun c _ => Nat.zero_le c.1, hsorted⟩) hempty
    exact happly.trans (congrArg Except.ok hsame)

theorem Patch.patched_eq_cutAt_resource :
    let source : Text :=
      "service / on x \x7b resource function get a(int b) returns c \x7b \x7d \x7d".toList
    let g := { Generator.constant "import d;\n" "int e, " "" " g();\n" "" with
      returnType := fun type _ => .ok type.text }
    ∃ (tree : Tree) (es : List Edit) (cuts : List (Nat × Text)),
      Tree.parse source = .ok tree ∧ Patch.edits tree g 4 = .ok es
      ∧ cuts.map Prod.fst = [0, 41, 60] ∧ Edit.apply source es = .ok (source.cutAt 0 cuts) := by
  intro source g
  have hrun : ((Tree.parse source).toOption.any fun tree =>
      tree.root.points source == [41, 60]) = true := by
    simp only [source]
    rw [String.toList_ofList]
    decide +kernel
  obtain ⟨tree, hparse, hpoints⟩ := exists_of_any hrun
  rw [beq_iff_eq] at hpoints
  have hanswer : ∀ r, g.answer r = .ok ((g.answer r).toOption.getD []) := by
    intro r
    cases r <;> rfl
  obtain ⟨sites, -, requests, -, hcut⟩ :=
    Patch.patched_eq_cutAt hparse (show (0 : Int) < 4 by decide)
  obtain ⟨es, cuts, hes, -, hfst, -, -, happly, -⟩ :=
    hcut g _ (fun r _ => hanswer r) (fun type ctx _ => rfl)
  exact ⟨tree, es, cuts, hparse, hes, by rw [hfst, hpoints], happly⟩

end BalMediation
