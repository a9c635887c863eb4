import BalMediation.Proofs.Records
import BalMediation.Proofs.ResourcePaths

/-!
# Blocks line by line

The block of a resource calls every hook once: the inflow hooks in their order, then the backend,
then the outflow hooks in theirs, each on a line of its own (`block_eq_lines`). The hooks are names
without newlines and nothing else is asked of them: they pass through two templates and a trim as
they are, and the lines are the same ones before and after the margin is put in front of them.
-/

namespace BalMediation

/-! ## Words and lines -/

namespace Text

theorem not_of_mem_splitWhere {p : Char → Bool} {t u : Text} (h : u ∈ splitWhere p t) :
    ∀ c ∈ u, p c = false := by
  induction t generalizing u with
  | nil =>
    obtain rfl : u = [] := by simpa [splitWhere] using h
    simp
  | cons d t ih =>
    obtain ⟨v, vs, hv⟩ := List.exists_cons_of_ne_nil (splitWhere_ne_nil p t)
    rw [splitWhere, hv] at h
    rw [hv] at ih
    split_ifs at h with hd
    · rcases List.mem_cons.1 h with rfl | h
      · simp
      · exact ih h
    · rcases List.mem_cons.1 h with rfl | h
      · have hfirst := ih (List.mem_cons_self)
        simpa [hd] using hfirst
      · exact ih (List.mem_cons_of_mem v h)

theorem isBlank_of_mem_words {t u : Text} (h : u ∈ t.words) : ∀ c ∈ u, isBlank c = false :=
  not_of_mem_splitWhere (List.mem_filter.1 h).1

theorem dropWhileEnd_concat {p : Char → Bool} {t : Text} {c : Char} (hc : p c = true)
    (ht : ∀ d ∈ t.getLast?, p d = false) : dropWhileEnd p (t ++ [c]) = t := by
  rcases List.eq_nil_or_concat t with rfl | ⟨u, d, rfl⟩
  · simp [dropWhileEnd, hc]
  · have hd : p d = false := ht d (by simp)
    simp [dropWhileEnd, hc, hd]

/-- Lines, each behind a margin and ended by a newline. -/
def ofLines (margin : Nat) (ls : List Text) : Text :=
  ls.flatMap fun l => List.replicate margin ' ' ++ l ++ ['\n']

theorem join_margin (margin : Nat) {ls : List Text} (hne : ls ≠ []) :
    join ['\n'] (ls.map (List.replicate margin ' ' ++ ·)) ++ ['\n'] = ofLines margin ls := by
  induction ls with
  | nil => exact absurd rfl hne
  | cons l ls ih =>
    cases ls with
    | nil => simp [join_cons, ofLines]
    | cons k ls =>
      have hjoin := @join_append [List.replicate margin ' ' ++ l]
        ((k :: ls).map (List.replicate margin ' ' ++ ·)) (by simp) (by simp) ['\n']
      rw [List.singleton_append] at hjoin
      rw [List.map_cons, hjoin, List.append_assoc, ih (by simp), ofLines, ofLines]
      simp [join_cons]

/-- Whether a text is a line that is not blank. -/
def IsLine (l : Text) : Prop :=
  '\n' ∉ l ∧ l.all isBlank = false

theorem splitOn_join_lines {ls : List Text} (hne : ls ≠ []) (h : ∀ l ∈ ls, IsLine l) :
    splitOn '\n' (join ['\n'] ls) = ls := by
  obtain ⟨l, ls, rfl⟩ := List.exists_cons_of_ne_nil hne
  exact splitOn_join fun k hk => (h k hk).1

/-- Lines that are not blank lose only the newline of the last one at their end. -/
theorem dropWhileEnd_ofLines {ls : List Text} (hne : ls ≠ []) (h : ∀ l ∈ ls, IsLine l) :
    dropWhileEnd (· == '\n') (ofLines 0 ls) = join ['\n'] ls := by
  have hjoin : ofLines 0 ls = join ['\n'] ls ++ ['\n'] := by
    simpa using (join_margin 0 hne).symm
  rw [hjoin]
  refine dropWhileEnd_concat rfl fun d hd => ?_
  by_contra hnewline
  obtain rfl : d = '\n' := by simpa using hnewline
  obtain ⟨u, hu⟩ := List.getLast?_eq_some_iff.1 hd
  -- An empty line stands behind a newline at the end.
  have hsplit := splitOn_join_lines hne h
  rw [hu, splitOn_append] at hsplit
  have hempty : ([] : Text) ∈ ls := by
    rw [← hsplit]
    exact List.mem_append_right _ (List.mem_singleton.2 rfl)
  cases (h [] hempty).2

end Text

namespace Fragment

theorem indent_uncountable {width level : Int} (h : maxCount < width * level) (t : Text) :
    indent width level t = .error .marginUncountable := by
  unfold indent
  simp [h]

/-- Lines that are not blank stay lines behind a margin, if a text can have such a margin. -/
theorem indent_ofLines {width level : Int} (hlow : 0 ≤ width * level) {ls : List Text}
    (hne : ls ≠ []) (h : ∀ l ∈ ls, Text.IsLine l) :
    indent width level (Text.ofLines 0 ls)
      = if width * level ≤ maxMargin then .ok (Text.ofLines (width * level).toNat ls)
        else .error (if width * level ≤ maxCount then .marginTooWide else .marginUncountable) := by
  have hmax : maxMargin ≤ maxCount := by decide
  have hmin : -maxCount - 1 < 0 := by decide
  by_cases hm : width * level ≤ maxMargin
  · have hmap : ls.map (indentLine (width * level).toNat)
        = ls.map (List.replicate (width * level).toNat ' ' ++ ·) :=
      List.map_congr_left fun k hk => by rw [indentLine, (h k hk).2]; rfl
    rw [if_pos hm, indent_eq (by omega) hm, Text.dropWhileEnd_ofLines hne h, indented,
      Text.splitOn_join_lines hne h, hmap, Text.join_margin _ hne]
  · rw [if_neg hm]
    by_cases hc : width * level ≤ maxCount
    · unfold indent
      simp only [Bool.or_eq_true, decide_eq_true_eq]
      rw [if_neg (by omega), if_pos (by omega), if_pos hc]
    · rw [indent_uncountable (by omega), if_neg hc]

/-! ## Calls -/

open Template

/-- The call of a hook with the context and one more argument. -/
def callText (hook argument : Text) : Text :=
  "check ".toList ++ hook ++ "(mediationCtx, ".toList ++ argument ++ ");".toList

/-- The template of a call whose second argument goes by this name. -/
def callParts (name : Text) : List Part :=
  [.text "check ".toList, .print "hook".toList, .text "(".toList, .print "context".toList,
    .text ", ".toList, .print name, .text ");\n".toList]

theorem parse_calls : parse Snippet.inflowTemplate = .ok (callParts "request".toList)
    ∧ parse Snippet.outflowTemplate = .ok (callParts "response".toList) := by
  simp only [Snippet.inflowTemplate, Snippet.outflowTemplate, Snippet.lines, List.flatMap_cons,
    List.flatMap_nil, callParts]
  repeat rw [String.toList_ofList]
  exact ⟨rfl, rfl⟩

theorem fill_callParts {values : List (Text × Value)} {name hook argument : Text}
    (hhook : lookup values "hook".toList = .ok (.text hook))
    (hcontext : lookup values "context".toList = .ok (.text contextVar))
    (hargument : lookup values name = .ok (.text argument)) :
    fill values (callParts name) = .ok (callText hook argument ++ ['\n']) := by
  have hnil : fill values [] = .ok [] := by rw [fill]
  have hlast := fill_print (fill_text hnil ");\n".toList) hargument
  have hfirst := fill_print (fill_text hlast ", ".toList) hcontext
  refine (fill_text (fill_print (fill_text hfirst "(".toList) hhook) "check ".toList).trans ?_
  unfold callText contextVar
  repeat rw [String.toList_ofList]
  simp

theorem exists_callText (hook argument : Text) :
    ∃ t, callText hook argument = 'c' :: (t ++ [';']) := by
  refine ⟨"heck ".toList ++ hook ++ "(mediationCtx, ".toList ++ argument ++ [')'], ?_⟩
  unfold callText
  repeat rw [String.toList_ofList]
  simp only [List.append_assoc, List.cons_append, List.nil_append]

theorem trim_callText (hook argument : Text) :
    (callText hook argument ++ ['\n']).trim = callText hook argument := by
  obtain ⟨t, ht⟩ := exists_callText hook argument
  rw [ht]
  refine Text.trim_append (a := []) (by simp) ?_ (by simp) ?_ ?_
  · rw [List.forall_mem_singleton]
    decide
  · rintro _ ⟨⟩
    decide
  · rw [← List.cons_append, List.getLast?_concat]
    rintro _ ⟨⟩
    decide

theorem renderSnippet_of_fill {snippets : Snippets} {name template t : Text} {ps : List Part}
    {values : List (Text × Value)} (hsnippet : snippets name = .ok template)
    (hparse : parse template = .ok ps) (hfill : fill values ps = .ok t) :
    renderSnippet snippets name values = .ok t := by
  simp only [renderSnippet, render, hsnippet, hparse, bind, Except.bind, hfill]
  rfl

theorem renderSnippet_call {snippets : Snippets} {file template name : Text}
    (hsnippet : snippets file = .ok template) (hparse : parse template = .ok (callParts name))
    (hnames : ["hook".toList, "context".toList, name].Nodup) (hook argument : Text) :
    renderSnippet snippets file [("hook".toList, .text hook), ("context".toList, .text contextVar),
      (name, .text argument)] = .ok (callText hook argument ++ ['\n']) := by
  have hlookup := @lookup_of_mem [("hook".toList, Value.text hook),
    ("context".toList, .text contextVar), (name, .text argument)] hnames
  exact renderSnippet_of_fill hsnippet hparse (fill_callParts (hlookup (.head _))
    (hlookup (.tail _ (.head _))) (hlookup (.tail _ (.tail _ (.head _)))))

/-! ## The block -/

/-- The line of a call in the template of a block. -/
def hookCall : List Part :=
  [.text "    ".toList, .print "call".toList, .text "\n".toList]

/-- The line that forwards a request. -/
def forwardLine (request : Text) : Text :=
  "    http:Response backendResponse = check backendEP->forward".toList
    ++ "(mediationCtx.resourcePath, ".toList ++ request ++ ");".toList

/-- The lines of a block with calls before and behind the forward. -/
def blockLines (inflowCalls outflowCalls : List Text) (request : Text) : List Text :=
  ["do \x7b".toList] ++ inflowCalls.map ("    ".toList ++ ·) ++ [forwardLine request]
    ++ outflowCalls.map ("    ".toList ++ ·)
    ++ ["    return backendResponse;".toList, "\x7d".toList]

/-- The template of a block. -/
def blockParts : List Part :=
  [.text "do \x7b\n".toList, .each "call".toList "inflow_calls".toList hookCall,
    .text "    http:Response ".toList, .print "response".toList,
    .text " = check backendEP->forward(".toList, .print "context".toList,
    .text ".resourcePath, ".toList, .print "request".toList, .text ");\n".toList,
    .each "call".toList "outflow_calls".toList hookCall, .text "    return ".toList,
    .print "response".toList, .text ";\n\x7d\n".toList]

theorem parse_mediationBlock : parse Snippet.mediationBlock = .ok blockParts := by
  simp only [Snippet.mediationBlock, Snippet.lines, List.flatMap_cons, List.flatMap_nil, blockParts,
    hookCall]
  repeat rw [String.toList_ofList]
  rfl

/-- A loop that fills its body in the same way in every round. -/
theorem fill_each {values : List (Text × Value)} {ps body : List Part} {r list item : Text}
    {ts : List Text} {line : Text → Text} (h : fill values ps = .ok r)
    (hv : lookup values list = .ok (.texts ts))
    (hbody : ∀ t loop, fill ((item, .text t) :: (loopName, loop) :: values) body = .ok (line t)) :
    fill values (.each item list body :: ps) = .ok (ts.flatMap line ++ r) := by
  have hrounds : (fun p : Text × Nat => fill
      ((item, .text p.1) :: (loopName, .loop (p.2 + 1) ts.length) :: values) body)
      = fun p => pure (line p.1) := funext fun p => hbody p.1 _
  rw [fill, fillPart, hv, h]
  simp only [bind, Except.bind, Value.items] at hrounds ⊢
  rw [hrounds, List.mapM_pure]
  have hmap : ts.zipIdx.map (line ∘ Prod.fst) = ts.map line := by
    rw [← List.map_map, List.zipIdx_map_fst]
  rw [Function.comp_def] at hmap
  rw [hmap]
  simp [pure, Except.pure, List.flatMap]

theorem fill_hookCall (values : List (Text × Value)) (call : Text) (loop : Value) :
    fill (("call".toList, .text call) :: (loopName, loop) :: values) hookCall
      = .ok ("    ".toList ++ call ++ ['\n']) := by
  have hcall : lookup (("call".toList, .text call) :: (loopName, loop) :: values) "call".toList
      = .ok (.text call) := by
    rw [lookup, List.find?_cons_of_pos (by simp)]
  have hnil : fill (("call".toList, .text call) :: (loopName, loop) :: values) [] = .ok [] := by
    rw [fill]
  refine (fill_text (fill_print (fill_text hnil "\n".toList) hcall) "    ".toList).trans ?_
  simp

/-- The values that go into the template of a block. -/
def blockValues (inflowCalls outflowCalls : List Text) (request : Text) : List (Text × Value) :=
  [("context".toList, .text contextVar), ("request".toList, .text request),
    ("response".toList, .text responseVar), ("inflow_calls".toList, .texts inflowCalls),
    ("outflow_calls".toList, .texts outflowCalls)]

theorem fill_blockParts (inflowCalls outflowCalls : List Text) (request : Text) :
    fill (blockValues inflowCalls outflowCalls request) blockParts
      = .ok (Text.ofLines 0 (blockLines inflowCalls outflowCalls request)) := by
  have hnames : ((blockValues inflowCalls outflowCalls request).map (·.1)).Nodup := by
    show ["context".toList, "request".toList, "response".toList, "inflow_calls".toList,
      "outflow_calls".toList].Nodup
    decide
  have hcontext := lookup_of_mem hnames (.head _)
  have hrequest := lookup_of_mem hnames (.tail _ (.head _))
  have hresponse := lookup_of_mem hnames (.tail _ (.tail _ (.head _)))
  have hinflow := lookup_of_mem hnames (.tail _ (.tail _ (.tail _ (.head _))))
  have houtflow := lookup_of_mem hnames (.tail _ (.tail _ (.tail _ (.tail _ (.head _)))))
  have hnil : fill (blockValues inflowCalls outflowCalls request) [] = .ok [] := by rw [fill]
  have hreturn := fill_text (fill_print (fill_text hnil ";\n\x7d\n".toList) hresponse)
    "    return ".toList
  have hcalls := fill_each hreturn houtflow fun t loop => fill_hookCall _ t loop
  have hforward := fill_print (fill_text (fill_print (fill_text hcalls ");\n".toList) hrequest)
    ".resourcePath, ".toList) hcontext
  have hline := fill_text (fill_print (fill_text hforward " = check backendEP->forward(".toList)
    hresponse) "    http:Response ".toList
  have hall := fill_text (fill_each hline hinflow fun t loop => fill_hookCall _ t loop)
    "do \x7b\n".toList
  refine hall.trans (congrArg Except.ok ?_)
  unfold blockLines forwardLine contextVar responseVar Text.ofLines
  repeat rw [String.toList_ofList]
  simp only [List.flatMap_append, List.flatMap_map, List.flatMap_cons, List.flatMap_nil,
    List.replicate_zero, List.append_assoc, List.nil_append, List.cons_append, List.append_nil]

theorem isLine_callText {hook argument : Text} (hh : '\n' ∉ hook) (ha : '\n' ∉ argument) :
    Text.IsLine ("    ".toList ++ callText hook argument) := by
  obtain ⟨t, ht⟩ := exists_callText hook argument
  refine ⟨?_, ?_⟩
  · unfold callText
    repeat rw [String.toList_ofList]
    simp [hh, ha]
  · rw [ht]
    simp [Text.isBlank]

theorem not_mem_requestName (ctx : Context) : '\n' ∉ requestName ctx := by
  rw [requestName]
  cases h : ctx.signature?.bind requestParameter? with
  | none => decide
  | some name =>
    obtain ⟨signature, -, h⟩ := Option.bind_eq_some_iff.1 h
    obtain ⟨p, -, hp⟩ := List.exists_of_findSome?_eq_some h
    unfold requestName? at hp
    split at hp
    · rename_i name' type words hwords
      have hmem : name ∈ p.text.words := by
        rw [← List.mem_reverse, hwords]
        split_ifs at hp
        cases hp
        exact List.mem_cons_self
      intro hnewline
      have hblank := Text.isBlank_of_mem_words hmem '\n' hnewline
      cases hblank
    · cases hp

theorem isLine_of_mem_blockLines {inflow outflow : List Text} {request : Text}
    (hin : ∀ h ∈ inflow, '\n' ∉ h) (hout : ∀ h ∈ outflow, '\n' ∉ h) (hr : '\n' ∉ request) :
    ∀ l ∈ blockLines (inflow.map (callText · request)) (outflow.map (callText · responseVar))
      request, Text.IsLine l := by
  have hforward : Text.IsLine (forwardLine request) := by
    unfold forwardLine
    repeat rw [String.toList_ofList]
    exact ⟨by simp [hr], List.all_eq_false.2 ⟨'h', by simp, by decide⟩⟩
  have hresponse : '\n' ∉ responseVar := by decide
  simp only [blockLines, List.forall_mem_append, List.forall_mem_map, List.forall_mem_singleton]
  refine ⟨⟨⟨⟨⟨by decide, by decide⟩, fun h hm => isLine_callText (hin h hm) hr⟩, hforward⟩,
    fun h hm => isLine_callText (hout h hm) hresponse⟩, ?_⟩
  rw [List.forall_mem_cons, List.forall_mem_singleton]
  exact ⟨⟨by decide, by decide⟩, by decide, by decide⟩

section Bundled

variable {snippets : Snippets} (hs : ∀ s ∈ Snippet.bundled, snippets s.1 = .ok s.2)

include hs

theorem inflowCall_eq (request hook : Text) :
    inflowCall snippets request hook = .ok (callText hook request) := by
  have hsnippet : snippets "inflow_template.bal".toList = .ok Snippet.inflowTemplate :=
    hs _ (Snippet.mem_bundled ("inflow_template.bal".toList, Snippet.inflowTemplate, _)
      (.tail _ (.tail _ (.head _))))
  have hcall := renderSnippet_call hsnippet parse_calls.1 (by decide) hook request
  simp only [inflowCall, hcall, bind, Except.bind, trim_callText]
  rfl

theorem outflowCall_eq (hook : Text) :
    outflowCall snippets hook = .ok (callText hook responseVar) := by
  have hsnippet : snippets "outflow_template.bal".toList = .ok Snippet.outflowTemplate :=
    hs _ (Snippet.mem_bundled ("outflow_template.bal".toList, Snippet.outflowTemplate, _)
      (.tail _ (.tail _ (.tail _ (.head _)))))
  have hcall := renderSnippet_call hsnippet parse_calls.2 (by decide) hook responseVar
  simp only [outflowCall, hcall, bind, Except.bind, trim_callText]
  rfl

/-- A block is its lines behind a margin, whatever the hooks are. -/
theorem block_eq_indent (hooks : Hooks) (ctx : Context) (level : Int) :
    block snippets hooks ctx level = indent hooks.indentWidth level (Text.ofLines 0
      (blockLines (hooks.inflow.map (callText · (requestName ctx)))
        (hooks.outflow.map (callText · responseVar)) (requestName ctx))) := by
  have hsnippet : snippets "mediation_block.bal".toList = .ok Snippet.mediationBlock :=
    hs _ (Snippet.mem_bundled ("mediation_block.bal".toList, Snippet.mediationBlock, _)
      (.tail _ (.tail _ (.tail _ (.tail _ (.head _))))))
  have hinflow : inflowCall snippets (requestName ctx)
      = fun hook => pure (callText hook (requestName ctx)) :=
    funext (inflowCall_eq hs (requestName ctx))
  have houtflow : outflowCall snippets = fun hook => pure (callText hook responseVar) :=
    funext (outflowCall_eq hs)
  have hrender := renderSnippet_of_fill hsnippet parse_mediationBlock
    (fill_blockParts (hooks.inflow.map (callText · (requestName ctx)))
      (hooks.outflow.map (callText · responseVar)) (requestName ctx))
  simp only [block, hinflow, houtflow, List.mapM_pure, pure_bind]
  exact congrArg (· >>= indent hooks.indentWidth level) hrender

end Bundled

/-- A block calls every inflow hook in order, forwards the request and calls every outflow hook in
order, on lines of their own behind the margin, unless no text can have that margin. -/
theorem block_eq_lines (fs : FileSystem) (here : List Text) {hooks : Hooks} {level : Int}
    (hin : ∀ h ∈ hooks.inflow, '\n' ∉ h) (hout : ∀ h ∈ hooks.outflow, '\n' ∉ h)
    (hw : 0 ≤ hooks.indentWidth) (hl : 0 ≤ level) (ctx : Context) :
    let margin := hooks.indentWidth * level
    block (SnippetLocation.bundled.read fs here) hooks ctx level
      = if margin ≤ maxMargin then
          .ok (Text.ofLines margin.toNat
            (blockLines (hooks.inflow.map (callText · (requestName ctx)))
              (hooks.outflow.map (callText · responseVar)) (requestName ctx)))
        else .error (if margin ≤ maxCount then .marginTooWide else .marginUncountable) := by
  intro margin
  rw [block_eq_indent (Snippet.read_bundled fs here)]
  exact indent_ofLines (Int.mul_nonneg hw hl) (by simp [blockLines])
    (isLine_of_mem_blockLines hin hout (not_mem_requestName ctx))

/-- Whether the first resource of a source refers to its request by this name. -/
def resourceRequests (source request : Text) : Bool :=
  (Tree.parse source).toOption.any fun tree => tree.root.children.any fun s =>
    s.children.any fun r => r.kind = .resourceAccessorDefinition
      && requestName (((Context.root tree.root).push s).push r) = request

theorem exists_of_resourceRequests {source request : Text}
    (h : resourceRequests source request = true) :
    ∃ tree s r, Tree.parse source = .ok tree ∧ s ∈ tree.root.children ∧ r ∈ s.children
      ∧ r.kind = .resourceAccessorDefinition
      ∧ requestName (((Context.root tree.root).push s).push r) = request := by
  obtain ⟨tree, hparse, hany⟩ := exists_of_any h
  simp only [List.any_eq_true, Bool.and_eq_true, decide_eq_true_eq] at hany
  obtain ⟨s, hs, r, hr, hkind, hrequest⟩ := hany
  exact ⟨tree, s, r, hparse, hs, hr, hkind, hrequest⟩

theorem block_eq_lines_template :
    let source : Text :=
      "service / on x \x7b resource function get a(http:Request q) \x7b \x7d \x7d".toList
    let hooks : Hooks :=
      ⟨["\x7b\x7b a \x7d\x7d".toList, " b c".toList], ["\x7b% endfor %\x7d".toList], none, 2⟩
    ∃ tree s r, Tree.parse source = .ok tree ∧ s ∈ tree.root.children ∧ r ∈ s.children
      ∧ r.kind = .resourceAccessorDefinition
      ∧ block (SnippetLocation.bundled.read ⟨[]⟩ []) hooks
          (((Context.root tree.root).push s).push r) 1 = .ok (Snippet.lines [
            "  do \x7b",
            "      check \x7b\x7b a \x7d\x7d(mediationCtx, q);",
            "      check  b c(mediationCtx, q);",
            "      http:Response backendResponse = check backendEP->forward" ++
              "(mediationCtx.resourcePath, q);",
            "      check \x7b% endfor %\x7d(mediationCtx, backendResponse);",
            "      return backendResponse;",
            "  \x7d"]) := by
  intro source hooks
  have hrun : resourceRequests source "q".toList = true := by
    simp only [source]
    repeat rw [String.toList_ofList]
    decide +kernel
  obtain ⟨tree, s, r, hparse, hs, hr, hkind, hrequest⟩ := exists_of_resourceRequests hrun
  have hblock := @block_eq_lines ⟨[]⟩ [] hooks 1 (by decide) (by decide) (by decide) (by decide)
    (((Context.root tree.root).push s).push r)
  rw [hrequest] at hblock
  refine ⟨tree, s, r, hparse, hs, hr, hkind, hblock.trans ?_⟩
  have hmargin : hooks.indentWidth * 1 ≤ maxMargin := by decide
  rw [if_pos hmargin]
  refine congrArg Except.ok ?_
  unfold Snippet.lines blockLines forwardLine callText responseVar
  simp only [List.flatMap_cons, List.flatMap_nil]
  repeat rw [String.toList_ofList]
  decide +kernel

/-- A margin whose width cannot be counted leaves a resource without its block. -/
theorem block_of_uncountable_margin :
    let source : Text := "service / on x \x7b resource function get a() \x7b \x7d \x7d".toList
    let hooks : Hooks := ⟨["pre".toList], ["post".toList], none, 9223372036854775808⟩
    (∀ h ∈ hooks.inflow, '\n' ∉ h) ∧ (∀ h ∈ hooks.outflow, '\n' ∉ h) ∧ 0 ≤ hooks.indentWidth
      ∧ ∃ tree s r, Tree.parse source = .ok tree ∧ s ∈ tree.root.children ∧ r ∈ s.children
        ∧ r.kind = .resourceAccessorDefinition
        ∧ block (SnippetLocation.bundled.read ⟨[]⟩ []) hooks
            (((Context.root tree.root).push s).push r) 1 = .error .marginUncountable := by
  intro source hooks
  have hrun : resourceRequests source "incomingRequest".toList = true := by
    simp only [source]
    repeat rw [String.toList_ofList]
    decide +kernel
  obtain ⟨tree, s, r, hparse, hs, hr, hkind, -⟩ := exists_of_resourceRequests hrun
  have hwide : maxCount < hooks.indentWidth * 1 := by decide
  refine ⟨by decide, by decide, by decide, tree, s, r, hparse, hs, hr, hkind, ?_⟩
  exact (block_eq_indent (Snippet.read_bundled ⟨[]⟩ []) _ _ _).trans (indent_uncountable hwide _)

end Fragment

end BalMediation
