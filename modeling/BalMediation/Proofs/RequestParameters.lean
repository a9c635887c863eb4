import BalMediation.Proofs.Records
import BalMediation.Proofs.Resources

/-!
# Request parameters

The code that is put into a resource refers to a request. It is a parameter of the resource: one
that it has, or one that is added in front of the others. A parameter is taken for a request by its
last two words, so this holds only where the words of a parameter are cut into the tokens of the
parameter (`Text.Clear`) and the last word is an identifier (`Patch.request_declared`). A comment
can make a request of a parameter that is none (`Patch.commented_request`).
-/

namespace BalMediation

open Lexer Segment Branch Cursor Phrase

/-! ## Names -/

namespace Text

/-- Whether the tokens of a text are those of its words: it has no comment, and no literal with a
blank in it. -/
def Clear (t : Text) : Prop :=
  ∃ lss, List.Forall₂ Spells t.words lss ∧ t.Spells lss.flatten

theorem Spells.unique {t : Text} {ls ls' : List Lexeme} (h : t.Spells ls) (h' : t.Spells ls') :
    ls = ls' := by
  obtain ⟨ts, hts, rfl⟩ := h
  obtain ⟨ts', hts', rfl⟩ := h'
  rw [hts] at hts'
  cases hts'
  rfl

theorem spells_caption {ws : List Word} {t : Text} (h : Legible ws t) :
    Spells (caption ws) (lexemes ws) := by
  cases ws with
  | nil => exact .nil
  | cons w ws =>
    have hl : Legible (⟨[], w.lexeme⟩ :: ws) ([] ++ t) := ⟨.nil, h.2.1, h.2.2⟩
    have hs := Spells.of_words hl.of_append (.gap .nil)
    simpa [caption] using hs

end Text

namespace Fragment

/-- The lexemes that declare a request of this name. -/
def requestLexemes (name : Text) : List Lexeme :=
  [⟨.ident, "http".toList⟩, ⟨.op, [':']⟩, ⟨.ident, "Request".toList⟩, ⟨.ident, name⟩]

theorem spells_requestType : requestType.Spells
    [⟨.ident, "http".toList⟩, ⟨.op, [':']⟩, ⟨.ident, "Request".toList⟩] :=
  ⟨_, show Text.scan _ = .ok [⟨⟨.ident, "http".toList⟩, 0⟩, ⟨⟨.op, [':']⟩, 4⟩,
    ⟨⟨.ident, "Request".toList⟩, 5⟩] by cbv, rfl⟩

/-- A clear parameter that is taken for a request declares it. -/
theorem spells_of_requestName? {p name : Text} (h : requestName? p = some name) (hc : p.Clear)
    (hn : name.Spells [⟨.ident, name⟩]) : ∃ ls, p.Spells (ls ++ requestLexemes name) := by
  obtain ⟨lss, hwords, hp⟩ := hc
  have hlast : ∃ front, p.words = front ++ [requestType, name] := by
    unfold requestName? at h
    split at h
    · rename_i w type front hr
      split_ifs at h with ht
      cases h
      refine ⟨front.reverse, ?_⟩
      rw [← List.reverse_reverse p.words, hr, ht]
      simp
    · cases h
  obtain ⟨front, hfront⟩ := hlast
  rw [hfront] at hwords
  have hdrop := List.forall₂_drop front.length hwords
  rw [List.drop_left] at hdrop
  obtain ⟨ls, rest, hls, hrest, hdrop⟩ := List.forall₂_cons_left_iff.1 hdrop
  obtain ⟨ks, none, hks, hnil, rfl⟩ := List.forall₂_cons_left_iff.1 hrest
  rw [List.forall₂_nil_left_iff] at hnil
  have hall : lss.flatten = (lss.take front.length).flatten ++ requestLexemes name := by
    nth_rewrite 1 [← List.take_append_drop front.length lss]
    rw [List.flatten_append, hdrop, hnil, hls.unique spells_requestType, hks.unique hn]
    rfl
  rw [hall] at hp
  exact ⟨_, hp⟩

theorem requestParameter?_eq (signature : Node) :
    requestParameter? signature
      = ((signature.childrenOf [.parameter]).map (·.text)).findSome? requestName? := by
  rw [requestParameter?, List.findSome?_map]
  rfl

/-- The text that declares a request in front of these parameters. -/
def paramsFor (parameters : List Text) : Text :=
  if (parameters.findSome? requestName?).isSome then []
  else requestType ++ [' '] ++ requestParam ++ (if parameters.isEmpty then [] else ", ".toList)

theorem params_eq (signature : Node) :
    params signature = paramsFor ((signature.childrenOf [.parameter]).map (·.text)) := by
  rw [params, paramsFor, requestParameter?_eq, List.isEmpty_map]

/-- The name of the request of a resource, by its parameters. -/
def requestNameFor (parameters : List Text) : Text :=
  (parameters.findSome? requestName?).getD requestParam

theorem requestName_eq {ctx : Context} (hk : ctx.node.kind = .resourceAccessorDefinition) :
    requestName ctx = requestNameFor ctx.node.parameters := by
  have hresource : ctx.resource? = some ctx.node := by
    simp [Context.resource?, Context.nearest?, Context.chain, hk]
  rw [requestName, requestNameFor, Context.signature?, hresource, Option.bind_some,
    Node.parameters]
  cases ctx.node.firstChild? .functionSignature with
  | none => rfl
  | some signature => simp [requestParameter?_eq]

theorem requestName_push {body : Node} (hk : body.kind = .functionBodyBlock) (ctx : Context) :
    requestName (ctx.push body) = requestName ctx := by
  have hresource : (ctx.push body).resource? = ctx.resource? := by
    simp [Context.resource?, Context.nearest?, Context.chain, Context.push, hk]
  rw [requestName, requestName, Context.signature?, Context.signature?, hresource]

end Fragment

/-! ## Parameters -/

namespace Phrase

open Fragment

theorem parameterRuns_ne_nil {run : List Word} (h : run ≠ []) (depth : Nat) (ws : List Word) :
    parameterRuns depth run ws ≠ [] := by
  induction ws generalizing depth run with
  | nil => simp [parameterRuns, h]
  | cons w ws ih =>
    rw [parameterRuns]
    split
    · simp [h]
    · exact ih (by simp) _

/-- Parentheses without a parameter hold nothing, or a comma first. -/
theorem isOp_of_parameterRuns {ws : List Word} (h : parameterRuns 0 [] ws = []) :
    ∀ l ∈ (lexemes ws).head?, l.isOp [','] = true := by
  cases ws with
  | nil => simp
  | cons w ws =>
    rintro _ ⟨⟩
    by_contra hw
    rw [parameterRuns, if_neg (by simpa using hw)] at h
    exact parameterRuns_ne_nil (by simp) _ _ h

/-- The tokens of a parameter are the lexemes of its run. -/
theorem spells_of_mem_parameterRuns {run ws r : List Word} {t : Text} {depth : Nat}
    (hl : Legible (run ++ ws) t) (hr : r ∈ parameterRuns depth run ws) :
    (caption r).Spells (lexemes r) := by
  have hrun : ∀ {run : List Word} {t : Text}, Legible run t →
      r ∈ (if run.isEmpty then [] else [run]) → (caption r).Spells (lexemes r) := by
    intro run t hl hr
    split at hr
    · cases hr
    · rw [List.mem_singleton.1 hr]
      exact Text.spells_caption hl
  induction ws generalizing depth run with
  | nil =>
    rw [List.append_nil] at hl
    exact hrun hl hr
  | cons w ws ih =>
    rw [parameterRuns] at hr
    split at hr
    · rw [legible_append] at hl
      rcases List.mem_append.1 hr with hr | hr
      · exact hrun hl.1 hr
      · exact ih (show Legible ([] ++ ws) t from hl.2.2.2) hr
    · exact ih (by simpa using hl) hr

/-- The words of the request that is added. -/
def requestWords : List Word :=
  [⟨[], ⟨.ident, "http".toList⟩⟩, ⟨[], ⟨.op, [':']⟩⟩, ⟨[], ⟨.ident, "Request".toList⟩⟩,
    ⟨[' '], ⟨.ident, requestParam⟩⟩]

theorem nested_of_plain_all {ls : List Lexeme}
    (h : ls.all (fun l => l.opens?.isNone && l.closes?.isNone) = true) : Nested ls := by
  induction ls with
  | nil => exact .nil
  | cons l ls ih =>
    simp only [List.all_cons, Bool.and_eq_true, Option.isNone_iff_eq_none] at h
    exact .plain h.1.1 h.1.2 (ih h.2)

/-- The run of the request comes first if nothing, or a comma, is behind it. -/
theorem requestRun {ws : List Word} {rest : List Lexeme}
    (h : lexemes ws = requestLexemes requestParam ++ rest)
    (hrest : ∀ l ∈ rest.head?, l.isOp [','] = true) :
    ∃ run ∈ parameterRuns 0 [] ws, lexemes run = requestLexemes requestParam := by
  simp only [requestLexemes, List.cons_append, List.nil_append] at h
  obtain ⟨w₁, ws, rfl, h₁, h⟩ := List.map_eq_cons_iff.1 h
  obtain ⟨w₂, ws, rfl, h₂, h⟩ := List.map_eq_cons_iff.1 h
  obtain ⟨w₃, ws, rfl, h₃, h⟩ := List.map_eq_cons_iff.1 h
  obtain ⟨w₄, ws, rfl, h₄, h⟩ := List.map_eq_cons_iff.1 h
  have hplain : ∀ l ∈ requestLexemes requestParam, l.isOp [','] = false ∧ depthAfter 0 l = 0 := by
    decide
  simp only [requestLexemes, List.forall_mem_cons, ← h₁, ← h₂, ← h₃, ← h₄] at hplain
  obtain ⟨⟨h₁', d₁⟩, ⟨h₂', d₂⟩, ⟨h₃', d₃⟩, ⟨h₄', d₄⟩, -⟩ := hplain
  refine ⟨[w₁, w₂, w₃, w₄], ?_, by simp [requestLexemes, h₁, h₂, h₃, h₄]⟩
  simp only [parameterRuns, h₁', h₂', h₃', h₄', d₁, d₂, d₃, d₄, Bool.and_false, Bool.false_eq_true,
    if_false, List.nil_append, List.cons_append]
  cases ws with
  | nil => simp [parameterRuns]
  | cons w ws =>
    have hw : w.lexeme.isOp [','] = true := hrest _ (by rw [← h]; rfl)
    simp [parameterRuns, hw]

/-- The request can be read in front of what no identifier goes on with. -/
theorem legible_requestWords {t : Text} (h : identLength t = 0) : Legible requestWords t := by
  have hwords : Legible requestWords [] :=
    legible_of_blanks (show legibleInBlanks requestWords [] = true by cbv)
  have hlast : Reads ⟨.ident, requestParam⟩ [] := hwords.2.2.2.2.2.2.2.1
  have hwords : Legible ([_, _, _] ++ [⟨[' '], ⟨.ident, requestParam⟩⟩]) [] := hwords
  exact hwords.of_last (hlast.ident_of h) (by decide)

section Parameters

variable {p : Group} {t : Text}

/-- Nothing between the parentheses of a signature without a parameter goes on with an
identifier. -/
theorem Group.Valid.identLength_inside (hv : p.Valid .paren) (hl : Legible p.words t)
    (hruns : parameterRuns 0 [] p.inside = []) (t' : Text) :
    identLength (spell p.inside ++ (p.closing.gap ++ ')' :: t')) = 0 := by
  obtain ⟨hinside, hgap⟩ := hv.legible_inside hl t'
  have hcomma := isOp_of_parameterRuns hruns
  cases hi : p.inside with
  | nil => simpa using hgap.identLength_append (by decide) (by decide) t'
  | cons w ws =>
    rw [hi] at hcomma hinside
    have hw := hcomma w.lexeme rfl
    simp only [Lexeme.isOp, Bool.and_eq_true, beq_iff_eq] at hw
    rw [spell_cons, hw.2]
    simpa using hinside.1.identLength_append (by decide) (by decide) _

/-- The request is the only parameter where there is no other. -/
theorem Group.Valid.exists_request_alone (hv : p.Valid .paren) (hl : Legible p.words t)
    (hruns : parameterRuns 0 [] p.inside = []) :
    ∃ p' : Group, p'.Valid .paren ∧ Mends t p.words p'.words
      ∧ spell p'.words
        = spell [p.opening] ++ spell requestWords ++ spell (p.inside ++ [p.closing])
      ∧ ∃ run ∈ parameterRuns 0 [] p'.inside, lexemes run = requestLexemes requestParam := by
  have hnested : Nested (lexemes requestWords) := nested_of_plain_all (by decide)
  obtain ⟨p', hv', hm, hlex, hspell⟩ := hv.exists_inset hl hnested .nil fun t' =>
    legible_requestWords (hv.identLength_inside hl hruns t')
  exact ⟨p', hv', hm, hspell, requestRun hlex (isOp_of_parameterRuns hruns)⟩

/-- The request comes with a comma in front of other parameters. -/
theorem Group.Valid.exists_request_first (hv : p.Valid .paren) (hl : Legible p.words t) :
    ∃ p' : Group, p'.Valid .paren ∧ Mends t p.words p'.words
      ∧ spell p'.words = spell [p.opening]
        ++ (spell (requestWords ++ [⟨[], ⟨.op, [',']⟩⟩]) ++ [' ']) ++ spell (p.inside ++ [p.closing])
      ∧ ∃ run ∈ parameterRuns 0 [] p'.inside, lexemes run = requestLexemes requestParam := by
  have hnested : Nested (lexemes (requestWords ++ [⟨[], ⟨.op, [',']⟩⟩])) :=
    nested_of_plain_all (by decide)
  have hread : ∀ t', Legible (requestWords ++ [⟨[], ⟨.op, [',']⟩⟩]) ([' '] ++ t') := fun _ =>
    (legible_of_blanks (show legibleInBlanks _ [] = true by cbv)).of_space (by decide)
  obtain ⟨p', hv', hm, hlex, hspell⟩ :=
    hv.exists_inset hl hnested (.space (by decide) .nil) fun _ => hread _
  refine ⟨p', hv', hm, hspell, ?_⟩
  rw [lexemes_append, List.append_assoc] at hlex
  exact requestRun hlex (by simp [Lexeme.isOp])

/-- The parameters of a resource behind the request that is added, or as they are. -/
theorem exists_requestParams (hv : p.Valid .paren) (hl : Legible p.words t) :
    let parameters := (parameterRuns 0 [] p.inside).map caption
    ∃ p' : Group, p'.Valid .paren ∧ Mends t p.words p'.words
      ∧ spell p'.words
        = spell [p.opening] ++ paramsFor parameters ++ spell (p.inside ++ [p.closing])
      ∧ (p' = p ∧ (parameters.findSome? requestName?).isSome
        ∨ parameters.findSome? requestName? = none
          ∧ ∃ run ∈ parameterRuns 0 [] p'.inside, lexemes run = requestLexemes requestParam) := by
  intro parameters
  by_cases hsome : (parameters.findSome? requestName?).isSome
  · exact ⟨p, hv, .refl hl, by simp [paramsFor, hsome, Group.words], .inl ⟨rfl, hsome⟩⟩
  have hnone : parameters.findSome? requestName? = none := by simpa using hsome
  by_cases hempty : parameters = []
  · obtain ⟨p', hv', hm, hspell, hrun⟩ :=
      hv.exists_request_alone hl (by simpa [parameters] using hempty)
    refine ⟨p', hv', hm, ?_, .inr ⟨hnone, hrun⟩⟩
    rw [hspell, paramsFor, if_neg hsome, hempty]
    rfl
  · obtain ⟨p', hv', hm, hspell, hrun⟩ := hv.exists_request_first hl
    refine ⟨p', hv', hm, ?_, .inr ⟨hnone, hrun⟩⟩
    rw [hspell, paramsFor, if_neg hsome, if_neg (by simpa using hempty)]
    rfl

end Parameters

/-- Whether a resource declares the request that the code in another refers to, provided that a
parameter of the other that is taken for a request is one. -/
def Definition.Declares (d d' : Definition) : Prop :=
  (∀ p ∈ d.parameters, ∀ name, requestName? p = some name →
    p.Clear ∧ name.Spells [⟨.ident, name⟩]) →
  ∃ p ∈ d'.parameters, ∃ ls, p.Spells (ls ++ requestLexemes (requestNameFor d.parameters))

/-- A resource with the request it refers to. -/
theorem Definition.remakes_declares {g : Generator}
    (hp : ∀ signature ctx, g.params signature ctx = .ok (Fragment.params signature))
    (source : Text) (width : Nat) :
    Remakes g (fun r => ∃ f, g.answer r = .ok f ∧ r.Closed f) source width Declares := by
  intro d before next t ctx h hd _ ha
  have hparts := hd.legible
  rw [words_eq, legible_append, legible_append] at hparts
  rw [segments, List.flatMap_cons, List.flatMap_append, List.forall_mem_append,
    List.forall_mem_append] at ha
  obtain ⟨p', hv, hm, hspell, hcase⟩ :=
    exists_requestParams h.function.signature.params (legible_append.1 hparts.2.1).1
  have hf : ∀ before next ctx, g.params (d.function.signature.node before next) ctx
      = .ok (paramsFor d.parameters) := by
    intro before next ctx
    rw [hp, params_eq, Signature.parameters_node]
    rfl
  obtain ⟨hvs, hms, hps⟩ := h.function.signature.mend_params hparts.2.1 (hf _ _ _)
    (Signature.returnType_of_closed ha.2.1) hv hm hspell
  obtain ⟨b', hb, hmb, hpb, -⟩ := Body.mend h.function.body hparts.2.2 ha.2.2
  have hne : lexemes d.function.body.words ≠ [] := by
    simpa [lexemes] using d.function.body.words_ne_nil
  refine ⟨d.remade { d.function.signature with params := p' } b', rfl,
    h.remade (hvs.congr hne hmb.first) hb, mends_remade hd.legible (hms.append hmb),
    patchedAll_remade hps hpb, fun hclear => ?_⟩
  rcases hcase with ⟨rfl, hsome⟩ | ⟨hnone, run, hrun, hlex⟩
  · obtain ⟨name, hname⟩ := Option.isSome_iff_exists.1 hsome
    have hname : d.parameters.findSome? requestName? = some name := hname
    obtain ⟨p, hmem, hp⟩ := List.exists_of_findSome?_eq_some hname
    obtain ⟨hc, hn⟩ := hclear p hmem name hp
    refine ⟨p, hmem, ?_⟩
    rw [requestNameFor, hname]
    exact spells_of_requestName? hp hc hn
  · have hnone : d.parameters.findSome? requestName? = none := hnone
    refine ⟨caption run, List.mem_map_of_mem hrun, [], ?_⟩
    have hl : Legible p'.inside (spell [p'.closing]
        ++ (spell d.function.signature.returnsWords ++ _)) :=
      (legible_append.1 (hm.legible _ rfl).2.2).1
    have hspells := spells_of_mem_parameterRuns (show Legible ([] ++ p'.inside) _ from hl) hrun
    rw [hlex] at hspells
    rwa [requestNameFor, hnone]

end Phrase

/-! ## Patched sources -/

open Fragment

theorem Tree.kind_of_mem_resources {tree : Tree} {ctx : Context} (h : ctx ∈ tree.resources) :
    ctx.node.kind = .resourceAccessorDefinition := by
  obtain ⟨s, -, hs⟩ := List.mem_flatMap.1 h
  obtain ⟨r, hr, rfl⟩ := List.mem_map.1 hs
  have hk : r.kind = .resourceAccessorDefinition := by simpa using (List.mem_filter.1 hr).2
  exact hk

theorem Patch.imports_mem {tree : Tree} {width : Nat} {requests : List Request}
    (h : Patch.requests tree width = .ok requests) :
    .imports (Context.root tree.root) ∈ requests := by
  obtain ⟨sites, -, h⟩ := bind_ok h
  cases h
  exact List.mem_append_right _ (List.mem_singleton.2 rfl)

/-- Where the rest of the code is closed, the patched resources declare their requests. -/
theorem Patch.exists_declared {source : Text} {tree : Tree} (h : Tree.parse source = .ok tree)
    {width : Int} (hw : 0 < width) {g : Generator}
    (hp : ∀ signature ctx, g.params signature ctx = .ok (Fragment.params signature))
    (hc : ∀ {requests : List Request}, Patch.requests tree width.toNat = .ok requests →
      g.Closed requests)
    (hclear : ∀ ctx ∈ tree.resources, ∀ p ∈ ctx.node.parameters, ∀ name,
      requestName? p = some name → p.Clear ∧ name.Spells [⟨.ident, name⟩]) :
    ∃ patched tree', Patch.applied tree g width = .ok patched ∧ Tree.parse patched = .ok tree'
      ∧ List.Forall₂ (fun ctx ctx' : Context => ∃ p ∈ ctx'.node.parameters, ∃ ls,
        p.Spells (ls ++ requestLexemes (requestName ctx))) tree.resources tree'.resources := by
  obtain ⟨requests, hrequests, -⟩ := Patch.exists_applied_iff h hw
  obtain ⟨imports, hi, himports⟩ := hc hrequests _ (Patch.imports_mem hrequests)
  obtain ⟨patched, tree', ds, ds', happlied, hparse, hds, hnodes⟩ :=
    Patch.exists_remade h hw (Definition.remakes_declares hp source _) hc hi himports
  refine ⟨patched, tree', happlied, hparse, ?_⟩
  obtain ⟨hds₁, hds₂⟩ := hnodes _ Node.parameters Definition.parameters fun d before next =>
    d.parameters_node _ before next
  have hall : List.Forall₂ (fun ps ps' => (∀ p ∈ ps, ∀ name, requestName? p = some name →
      p.Clear ∧ name.Spells [⟨.ident, name⟩]) →
      ∃ p ∈ ps', ∃ ls, p.Spells (ls ++ requestLexemes (requestNameFor ps)))
      (ds.map Definition.parameters) (ds'.map Definition.parameters) := by
    rw [List.forall₂_map_left_iff, List.forall₂_map_right_iff]
    exact hds
  rw [← hds₁, ← hds₂, List.forall₂_map_left_iff, List.forall₂_map_right_iff] at hall
  refine ((List.forall₂_and_left _ _).2 ⟨fun ctx hctx => hctx, hall⟩).imp fun ctx ctx' hctx => ?_
  rw [requestName_eq (Tree.kind_of_mem_resources hctx.1)]
  exact hctx.2 (hclear ctx hctx.1)

/-- The generator that adds requests and leaves the rest of a source as it is. -/
def Generator.requestParams : Generator where
  imports _ := .ok []
  params signature _ := .ok (Fragment.params signature)
  returnType type _ := .ok type.text
  record _ _ := .ok []
  block _ _ := .ok []

theorem Fragment.closedParams_params (signature : Node) : ClosedParams (params signature) := by
  have hone : Text.scan (requestType ++ [' '] ++ requestParam ++ [])
      = .ok [⟨⟨.ident, "http".toList⟩, 0⟩, ⟨⟨.op, [':']⟩, 4⟩, ⟨⟨.ident, "Request".toList⟩, 5⟩,
        ⟨⟨.ident, requestParam⟩, 13⟩] := by decide +kernel
  have hmore : Text.scan (requestType ++ [' '] ++ requestParam ++ ", ".toList)
      = .ok [⟨⟨.ident, "http".toList⟩, 0⟩, ⟨⟨.op, [':']⟩, 4⟩, ⟨⟨.ident, "Request".toList⟩, 5⟩,
        ⟨⟨.ident, requestParam⟩, 13⟩, ⟨⟨.op, [',']⟩, 28⟩] := by decide +kernel
  rw [params_eq, paramsFor]
  split_ifs
  · exact .inl rfl
  · refine .inr ⟨by decide +kernel, by decide +kernel,
      ⟨_, hone, nested_of_plain_all (by decide +kernel)⟩, .inr ⟨_, _, hone, rfl, rfl, ?_⟩⟩
    decide +kernel
  · exact .inr ⟨by decide +kernel, by decide +kernel,
      ⟨_, hmore, nested_of_plain_all (by decide +kernel)⟩, .inl (by decide +kernel)⟩

theorem Generator.closed_requestParams (requests : List Request) :
    Generator.requestParams.Closed requests := by
  intro r _
  cases r with
  | imports ctx => exact ⟨_, rfl, .inl rfl⟩
  | params signature ctx => exact ⟨_, rfl, closedParams_params signature⟩
  | returnType type ctx => exact ⟨_, rfl, rfl⟩
  | record ctx level => exact ⟨_, rfl, .inl rfl⟩
  | block ctx level => exact ⟨_, rfl, .inl rfl⟩

/-- The request that the code in a body refers to is declared by the signature with the request
that is added to it, if parameters that are taken for requests are clear. -/
theorem Patch.request_declared {source : Text} {tree : Tree} (h : Tree.parse source = .ok tree)
    {width : Int} (hw : 0 < width)
    (hclear : ∀ ctx ∈ tree.resources, ∀ p ∈ ctx.node.parameters, ∀ name,
      requestName? p = some name → p.Clear ∧ name.Spells [⟨.ident, name⟩]) :
    ∃ patched tree', Patch.applied tree Generator.requestParams width = .ok patched
      ∧ Tree.parse patched = .ok tree'
      ∧ List.Forall₂ (fun ctx ctx' : Context => ∀ body : Node, body.kind = .functionBodyBlock →
        ∃ p ∈ ctx'.node.parameters, ∃ ls,
          p.Spells (ls ++ requestLexemes (requestName (ctx.push body))))
        tree.resources tree'.resources := by
  obtain ⟨patched, tree', happlied, hparse, hall⟩ := Patch.exists_declared h hw
    (fun signature ctx => rfl) (fun _ => Generator.closed_requestParams _) hclear
  refine ⟨patched, tree', happlied, hparse, hall.imp fun ctx ctx' hctx body hk => ?_⟩
  rw [requestName_push hk]
  exact hctx

theorem Patch.request_declared_resources :
    let source : Text :=
      "service / on x \x7b resource function get a(int b, http:Request c) \x7b \x7d".toList
        ++ " resource function get d() \x7b \x7d \x7d".toList
    ∃ tree patched tree', Tree.parse source = .ok tree
      ∧ tree.resources.map requestName = ["c".toList, "incomingRequest".toList]
      ∧ Patch.applied tree Generator.requestParams 4 = .ok patched ∧ Tree.parse patched = .ok tree'
      ∧ List.Forall₂ (fun ctx ctx' : Context => ∀ body : Node, body.kind = .functionBodyBlock →
        ∃ p ∈ ctx'.node.parameters, ∃ ls,
          p.Spells (ls ++ requestLexemes (requestName (ctx.push body))))
        tree.resources tree'.resources := by
  intro source
  have hrun : ((Tree.parse source).toOption.any fun tree =>
      tree.resources.map (fun ctx => ctx.node.parameters)
        == [["int b".toList, "http:Request c".toList], []]
      && tree.resources.map requestName == ["c".toList, "incomingRequest".toList]) = true := by
    simp only [source]
    repeat rw [String.toList_ofList]
    decide +kernel
  obtain ⟨tree, hparse, hrun⟩ := exists_of_any hrun
  simp only [Bool.and_eq_true, beq_iff_eq] at hrun
  have hclear : ∀ ps ∈ tree.resources.map (fun ctx => ctx.node.parameters), ∀ p ∈ ps, ∀ name,
      requestName? p = some name → p.Clear ∧ name.Spells [⟨.ident, name⟩] := by
    have hnone : requestName? "int b".toList = none := by decide +kernel
    have hsome : requestName? "http:Request c".toList = some "c".toList := by decide +kernel
    have hc : Text.Spells "c".toList [⟨.ident, "c".toList⟩] :=
      ⟨_, show Text.scan _ = .ok [⟨⟨.ident, "c".toList⟩, 0⟩] by decide +kernel, rfl⟩
    rw [hrun.1]
    intro ps hps p hp name hname
    simp only [List.mem_cons, List.not_mem_nil, or_false] at hps
    rcases hps with rfl | rfl
    · simp only [List.mem_cons, List.not_mem_nil, or_false] at hp
      rcases hp with rfl | rfl
      · rw [hnone] at hname
        cases hname
      · rw [hsome] at hname
        cases hname
        exact ⟨⟨_, .cons spells_requestType (.cons hc .nil), _, show Text.scan _
          = .ok [⟨⟨.ident, "http".toList⟩, 0⟩, ⟨⟨.op, [':']⟩, 4⟩, ⟨⟨.ident, "Request".toList⟩, 5⟩,
            ⟨⟨.ident, "c".toList⟩, 13⟩] by decide +kernel, rfl⟩, hc⟩
    · cases hp
  obtain ⟨patched, tree', happlied, hparse', hall⟩ := Patch.request_declared hparse
    (show (0 : Int) < 4 by decide) fun ctx hctx => hclear _ (List.mem_map_of_mem hctx)
  exact ⟨tree, patched, tree', hparse, hrun.2, happlied, hparse', hall⟩

/-- Words of a comment make a request of a parameter that is none. -/
theorem Patch.commented_request :
    let source : Text :=
      "service / on x \x7b resource function get a(string // http:Request\n s) \x7b\x7d \x7d".toList
    ∃ tree ctx, Tree.parse source = .ok tree ∧ tree.resources = [ctx]
      ∧ ctx.signature?.map Fragment.params = some [] ∧ requestName ctx = "s".toList
      ∧ ∀ p ∈ ctx.node.parameters, ∀ ls, ¬ p.Spells (ls ++ requestLexemes (requestName ctx)) := by
  intro source
  have hrun : ((Tree.parse source).toOption.any fun tree =>
      tree.resources.length == 1
      && tree.resources.map (fun ctx => ctx.node.parameters)
        == [["string // http:Request\n s".toList]]
      && tree.resources.map requestName == ["s".toList]
      && tree.resources.map (fun ctx => ctx.signature?.map Fragment.params) == [some []]) = true := by
    simp only [source]
    repeat rw [String.toList_ofList]
    decide +kernel
  obtain ⟨tree, hparse, hrun⟩ := exists_of_any hrun
  simp only [Bool.and_eq_true, beq_iff_eq] at hrun
  obtain ⟨⟨⟨hlen, hparams⟩, hname⟩, hadded⟩ := hrun
  obtain ⟨ctx, hctx⟩ := List.length_eq_one_iff.1 hlen
  rw [hctx] at hparams hname hadded
  simp only [List.map_cons, List.map_nil, List.cons.injEq, and_true] at hparams hname hadded
  refine ⟨tree, ctx, hparse, hctx, hadded, hname, ?_⟩
  intro p hp ls hspells
  rw [hparams, List.mem_singleton] at hp
  subst hp
  have hlexemes : Text.Spells "string // http:Request\n s".toList
      [⟨.ident, "string".toList⟩, ⟨.ident, "s".toList⟩] :=
    ⟨_, show Text.scan _ = .ok [⟨⟨.ident, "string".toList⟩, 0⟩, ⟨⟨.ident, "s".toList⟩, 24⟩]
      by decide +kernel, rfl⟩
  have hlen := congrArg List.length (hspells.unique hlexemes)
  simp [requestLexemes] at hlen

end BalMediation
