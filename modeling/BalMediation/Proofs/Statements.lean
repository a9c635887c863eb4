import BalMediation.Proofs.Blocks
import BalMediation.Proofs.RequestParameters

/-!
# Statements without hooks

What a generator over the bundled snippets puts into a source if it is given no hooks: a record and
a block that end with a newline (`FillsLines`), and imports that are closed. Such statements can be
put into every body, whatever their margin is (`Body.exists_lines`). Without a margin they can run
into an identifier that ends in a newline, which still nests.
-/

namespace BalMediation

open Lexer Segment Branch Cursor Phrase

/-- Whether a text spells nested words and ends with a newline that belongs to none of them. -/
def FillsLines (f : Text) : Prop :=
  ∃ ws tail, f = spell ws ++ (tail ++ ['\n']) ∧ Nested (lexemes ws) ∧ Gap (tail ++ ['\n'])
    ∧ Legible ws (tail ++ ['\n'])

namespace FillsLines

theorem newline : FillsLines ['\n'] :=
  ⟨[], [], rfl, .nil, .space rfl .nil, trivial⟩

theorem of_spells {t : Text} {ls : List Lexeme} (h : t.Spells ls) (hn : Nested ls) :
    FillsLines (t ++ ['\n']) := by
  obtain ⟨ws, tail, rfl, hl, ht, rfl⟩ := h.exists_words
  have hgap := ht.append_newline (.space rfl .nil)
  exact ⟨ws, tail, by simp, hn, hgap, by simpa using hl.append_newline hgap []⟩

theorem append {f f' : Text} (h : FillsLines f) (h' : FillsLines f') : FillsLines (f ++ f') := by
  obtain ⟨ws, tail, rfl, hn, hg, hl⟩ := h
  obtain ⟨ws', tail', rfl, hn', hg', hl'⟩ := h'
  have hl : ∀ t, Legible ws (tail ++ ['\n'] ++ t) := fun t =>
    hl.of_ahead (ahead_gap hg (by simp) t).symm
  cases ws' with
  | nil =>
    refine ⟨ws, tail ++ ['\n'] ++ tail', by simp, hn, by simpa using hg.append hg', ?_⟩
    simpa using hl (tail' ++ ['\n'])
  | cons w ws' =>
    refine ⟨ws ++ pad (tail ++ ['\n']) (w :: ws'), tail', ?_, ?_, hg', ?_⟩
    · rw [spell_append, spell_pad (by simp)]
      simp
    · rw [lexemes_append, lexemes_pad]
      exact hn.append hn'
    · rw [legible_append, spell_pad (by simp)]
      exact ⟨by simpa using hl (spell (w :: ws') ++ (tail' ++ ['\n'])),
        hl'.pad fun _ _ hgap => hg.append hgap⟩

theorem ne_nil {f : Text} (h : FillsLines f) : f ≠ [] := by
  obtain ⟨ws, tail, rfl, -⟩ := h
  simp

theorem fills {f : Text} (h : FillsLines f) : Fills f := by
  obtain ⟨ws, tail, rfl, hn, hg, hl⟩ := h
  exact ⟨ws, tail ++ ['\n'], rfl, hn, hg, fun t _ => hl.of_ahead (ahead_gap hg (by simp) t).symm⟩

end FillsLines

/-- Whether the statements that are asked for are on lines of their own. -/
def Request.AnsweredInLines (g : Generator) : Request → Prop
  | record ctx level => ∃ f, g.record ctx level = .ok f ∧ FillsLines f
  | block ctx level => ∃ f, g.block ctx level = .ok f ∧ FillsLines f
  | imports _ | params _ _ | returnType _ _ => True

namespace Phrase

section Block

variable {p : Group} {t : Text}

/-- Statements behind an identifier that ends in a newline go on with it. -/
theorem exists_block_of_ident (hv : p.Valid .brace) (hl : Legible p.words t) {init : List Word}
    {w : Word} (hi : p.inside = init ++ [w]) (hk : w.lexeme.kind = .ident) {f : Text}
    (hf : FillsLines f) :
    ∃ p' : Group, p'.Valid .brace ∧ Mends t p.words p'.words
      ∧ spell p'.words = spell [p.opening] ++ spell p.inside ++ f
        ++ (p.closing.gap ++ p.closing.lexeme.text) := by
  have hgap := Group.legible_gap hl
  obtain ⟨ws, tail, rfl, hn, hg, hws⟩ := hf
  have hlegible : Legible ((p.opening :: init) ++ ([w] ++ [p.closing])) t := by
    have hwords : p.words = (p.opening :: init) ++ ([w] ++ [p.closing]) := by
      simp [Group.words, hi]
    rwa [hwords] at hl
  obtain ⟨hfront, hw, hr, -⟩ := legible_append.1 hlegible
  have hread : Reads ⟨.ident, w.lexeme.text⟩ [] := by
    rw [← hk]
    exact (reads_iff.1 hr).1
  obtain ⟨rs, hrs, hlrs, hnested⟩ :=
    exists_glued hws hn (by simpa using identLength_gap hg (by simp) []) hread
  have hrsne : rs ≠ [] := by
    rintro rfl
    exact hr.ne_nil (List.append_eq_nil_iff.1 hrs).1
  have hinit : Nested (lexemes init) := by
    have hin := hv.inside
    rw [hi, lexemes_append] at hin
    exact hin.of_concat (plain_of_kind (by simp [hk])).2
  have hall : Nested (lexemes (init ++ pad w.gap rs)) := by
    rw [lexemes_append, lexemes_pad]
    exact hinit.append hnested
  obtain ⟨hv', hm⟩ := hv.mends_block (hg.append hgap) hall fun t' => by
    rw [← List.cons_append, legible_append, spell_pad hrsne, ← hrs]
    refine ⟨hfront.of_ahead ?_, Legible.pad (hlrs.of_ahead ?_) fun _ _ hgap => hw.append hgap⟩
    · have hword : ∀ u, ahead (spell [w] ++ u) = ahead (spell [w]) := by
        refine ahead_append ?_ (spell_ident_ne_point hread) ?_
        · simp [hr.ne_nil]
        · exact (legible_append.1 (legible_append.1 hlegible).2).1.spell_ne_backslash
      rw [spell_append, List.append_assoc, hword]
      simpa using (hword _).symm
    · rw [List.append_assoc]
      exact (ahead_gap hg (by simp) _).symm
  refine ⟨_, hv', hm, ?_⟩
  simp [Group.words, spell_pad hrsne, ← hrs, hi]

/-- Statements on lines of their own at the end of a block. -/
theorem exists_lines (hv : p.Valid .brace) (hl : Legible p.words t) (before : Text) {f : Text}
    (hf : FillsLines f) (hs : p.Alone before ∨ ∀ c ∈ f.head?, isSpace c = true) :
    ∃ p' : Group, p'.Valid .brace ∧ Mends t p.words p'.words
      ∧ spell p'.words = spell [p.opening] ++ p.mid.take (p.cut before) ++ f
        ++ (p.mid.drop (p.cut before) ++ p.closing.lexeme.text) := by
  rcases hs with ha | hs
  · obtain ⟨g₁, g₂, hsplit, hg₁, hg₂, htake, hdrop⟩ := Group.exists_cut hv hl before
    rw [htake, hdrop]
    by_cases h₁ : g₁ = []
    · -- A line begins at the cut without a gap, so its newline is the end of an identifier.
      subst h₁
      obtain ⟨front, hline, -⟩ := Group.take_cut hv ha
      rw [htake, List.append_nil] at hline
      have hinside : Legible p.inside (spell [p.closing] ++ t) := (legible_append.1 hl.2.2).1
      obtain ⟨init, w, hi, hk, -⟩ := exists_last hinside
        (show (spell p.inside).getLast? = some '\n' by rw [hline, List.getLast?_concat]) rfl
      obtain ⟨p', hv', hm, hspell⟩ := exists_block_of_ident hv hl hi hk hf
      refine ⟨p', hv', hm, ?_⟩
      rw [hspell, hsplit]
      simp
    · refine hv.exists_filled hl hsplit hg₁ hg₂ hf.fills fun _ u => ?_
      have hfront : Legible ((p.opening :: p.inside) ++ [p.closing]) t := hl
      have hfront := (legible_append.1 hfront).1
      rw [spell_cons, hsplit] at hfront
      refine hfront.of_ahead ?_
      rw [ahead_gap hg₁ h₁, List.append_assoc, List.append_assoc, List.append_assoc,
        ahead_gap hg₁ h₁]
  · exact exists_block hv hl before hf.fills hs

end Block

/-- A body with statements on lines of their own. -/
theorem Body.exists_lines {g : Generator} {t : Text} {b : Body} (h : b.Valid)
    (hl : Legible b.words t) {width : Nat} {before next : Text} {ctx : Context}
    (ha : ∀ r ∈ (b.segments width before next ctx).flatMap requests, r.AnsweredInLines g) :
    ∃ b' : Body, b'.Valid ∧ Mends t b.words b'.words
      ∧ patchedAll g (b.segments width before next ctx) = .ok (spell b'.words) := by
  cases b with
  | clause sign content semicolon =>
    exact ⟨.clause sign content semicolon, h, .refl hl, (patchedAll_cons rfl rfl).trans (by simp)⟩
  | bare semicolon =>
    exact ⟨.bare semicolon, h, .refl hl, (patchedAll_cons rfl rfl).trans (by simp)⟩
  | block p =>
    obtain ⟨record, hr, hrl⟩ := ha (.record (ctx.push (p.node before next)) (p.level width before))
      (by simp [segments, Group.segments, requests])
    obtain ⟨block, hb, hbl⟩ := ha (.block (ctx.push (p.node before next)) (p.level width before))
      (by simp [segments, Group.segments, requests])
    have hbody : patched g (.body (!decide (p.Alone before)) (p.level width before)
        (ctx.push (p.node before next)))
        = .ok (lead (!decide (p.Alone before)) record block ++ record ++ block) := by
      simp [patched, hr, hb, bind, Except.bind, pure, Except.pure]
    have hlines : FillsLines (lead (!decide (p.Alone before)) record block ++ record ++ block)
        ∧ (p.Alone before ∨ ∀ c ∈ (lead (!decide (p.Alone before)) record block
          ++ record ++ block).head?, isSpace c = true) := by
      by_cases hal : p.Alone before
      · exact ⟨by simpa [lead, hal] using hrl.append hbl, .inl hal⟩
      · have hlead : lead (!decide (p.Alone before)) record block = ['\n'] := by
          simp [lead, hal, hrl.ne_nil]
        rw [hlead]
        exact ⟨(FillsLines.newline.append hrl).append hbl, .inr (by simp [isSpace])⟩
    obtain ⟨p', hv, hm, hspell⟩ := Phrase.exists_lines h hl before hlines.1 hlines.2
    refine ⟨.block p', hv, hm, ?_⟩
    refine (patchedAll_cons rfl (patchedAll_cons hbody (patchedAll_cons rfl rfl))).trans ?_
    simp [Body.words, hspell]

end Phrase

/-! ## Fragments -/

namespace Fragment

open Template

theorem nested_recordLexemes (margin : Nat) (method path service : Text) :
    Nested (recordLexemes margin method path service) := by
  have hstring : ∀ t, (stringLiteral margin t).opens? = none
      ∧ (stringLiteral margin t).closes? = none := fun t => plain_of_kind (by simp [stringLiteral])
  have htemplate : (templateLiteral margin path).opens? = none
      ∧ (templateLiteral margin path).closes? = none := plain_of_kind (by simp [templateLiteral])
  have hfields : Nested [⟨.ident, "httpMethod".toList⟩, ⟨.op, [':']⟩, stringLiteral margin method,
      ⟨.op, [',']⟩, ⟨.ident, "resourcePath".toList⟩, ⟨.op, [':']⟩, ⟨.ident, "string".toList⟩,
      templateLiteral margin path, ⟨.op, [',']⟩, ⟨.ident, "serviceBasePath".toList⟩, ⟨.op, [':']⟩,
      stringLiteral margin service] := by
    refine nested_of_plain_all ?_
    simp only [List.all_cons, List.all_nil, hstring, htemplate]
    decide
  have hfront : Nested [⟨.ident, "MediationContext".toList⟩, ⟨.ident, contextVar⟩, ⟨.op, ['=']⟩] :=
    nested_of_plain_all (by decide)
  have hclosing : Nested [⟨.op, [';']⟩] := nested_of_plain_all (by decide)
  exact hfront.append (.group (b := .brace) (by decide) hfields (by decide) hclosing)

/-- The line that forwards the request that is added. -/
def forwardCall : Text :=
  "    http:Response backendResponse = check backendEP->forward".toList
    ++ "(mediationCtx.resourcePath, incomingRequest);".toList

/-- The text of a block without hooks, without the newline at its end. -/
def forwardText : Text :=
  "do \x7b".toList ++ '\n' :: (forwardCall ++
    '\n' :: ("    return backendResponse;".toList ++ '\n' :: "\x7d".toList))

/-- The lexemes of the arguments of a forward. -/
def forwardArguments : List Lexeme :=
  [⟨.ident, contextVar⟩, ⟨.op, ['.']⟩, ⟨.ident, "resourcePath".toList⟩, ⟨.op, [',']⟩,
    ⟨.ident, requestParam⟩]

/-- The lexemes of a block without hooks. -/
def forwardLexemes : List Lexeme :=
  [⟨.ident, "do".toList⟩] ++ ⟨.op, ['\x7b']⟩ :: (([⟨.ident, "http".toList⟩, ⟨.op, [':']⟩,
      ⟨.ident, "Response".toList⟩, ⟨.ident, responseVar⟩, ⟨.op, ['=']⟩, ⟨.ident, "check".toList⟩,
      ⟨.ident, "backendEP".toList⟩, ⟨.op, "->".toList⟩, ⟨.ident, "forward".toList⟩]
    ++ ⟨.op, ['(']⟩ :: (forwardArguments ++ ⟨.op, [')']⟩ :: [⟨.op, [';']⟩,
      ⟨.ident, "return".toList⟩, ⟨.ident, responseVar⟩, ⟨.op, [';']⟩])) ++ ⟨.op, ['\x7d']⟩ :: [])

theorem nested_forwardLexemes : Nested forwardLexemes := by
  have harguments : Nested forwardArguments := nested_of_plain_all (by decide)
  refine .append (nested_of_plain_all (by decide)) (.group (b := .brace) (by decide) ?_
    (by decide) .nil)
  exact .append (nested_of_plain_all (by decide)) (.group (b := .paren) (by decide)
    harguments (by decide) (nested_of_plain_all (by decide)))

theorem spells_forwardText (margin : Nat) :
    Text.Spells (indented margin forwardText) forwardLexemes := by
  have hspells : ∀ {t : Text} {ls : List Lexeme},
      (t.scan.toOption.any fun ts => ts.map (·.toLexeme) == ls) = true → t.Spells ls := by
    intro t ls h
    obtain ⟨ts, hts, hls⟩ := exists_of_any h
    exact ⟨ts, hts, by simpa using hls⟩
  have hdo : Text.Spells "do \x7b".toList (forwardLexemes.take 2) := hspells (by cbv)
  have hcall : Text.Spells forwardCall ((forwardLexemes.drop 2).take 17) := by
    refine hspells ?_
    unfold forwardCall forwardLexemes forwardArguments contextVar responseVar requestParam
    repeat rw [String.toList_ofList]
    cbv
  have hreturn : Text.Spells "    return backendResponse;".toList
      ((forwardLexemes.drop 19).take 3) := hspells (by cbv)
  have hclose : Text.Spells "\x7d".toList (forwardLexemes.drop 22) := hspells (by cbv)
  have hall := spells_newline margin (spells_line margin (by decide) (by decide) hdo)
    (spells_newline margin (spells_line margin (by decide) (by decide) hcall)
      (spells_newline margin (spells_line margin (by decide) (by decide) hreturn)
        (spells_line margin (by decide) (by decide) hclose)))
  exact hall

theorem ofLines_blockLines_nil :
    Text.ofLines 0 (blockLines [] [] requestParam) = forwardText ++ ['\n'] := by
  unfold Text.ofLines blockLines forwardLine forwardText forwardCall requestParam
  simp only [List.map_nil, List.append_nil, List.cons_append, List.nil_append]
  repeat rw [String.toList_ofList]
  rfl

section Bundled

variable {snippets : Snippets} (hs : ∀ s ∈ Snippet.bundled, snippets s.1 = .ok s.2)

include hs

theorem exists_record_lines {width level : Int} (hlow : -maxCount - 1 ≤ width * level)
    (hmax : width * level ≤ maxMargin) {ctx : Context} (hm : ctx.resourceMethod.quotable = true)
    (hp : '\x60' ∉ ctx.resourcePath) (hp' : ctx.servicePath.quotable = true) :
    ∃ f, record snippets width ctx level = .ok f ∧ FillsLines f := by
  rw [← Text.quotable_upper] at hm
  exact ⟨_, record_eq_indented hs hlow hmax ctx,
    .of_spells (spells_record _ hm hp hp') (nested_recordLexemes _ _ _ _)⟩

theorem exists_block_lines {hooks : Hooks} (hin : hooks.inflow = []) (hout : hooks.outflow = [])
    {level : Int} (hlow : -maxCount - 1 ≤ hooks.indentWidth * level)
    (hmax : hooks.indentWidth * level ≤ maxMargin) {ctx : Context}
    (hr : requestName ctx = requestParam) :
    ∃ f, block snippets hooks ctx level = .ok f ∧ FillsLines f := by
  have hdrop : Text.dropWhileEnd (· == '\n') (forwardText ++ ['\n']) = forwardText := by
    unfold forwardText forwardCall
    repeat rw [String.toList_ofList]
    decide
  refine ⟨indented (hooks.indentWidth * level).toNat forwardText ++ ['\n'], ?_,
    .of_spells (spells_forwardText _) nested_forwardLexemes⟩
  rw [block_eq_indent hs, hin, hout, hr, List.map_nil, List.map_nil, ofLines_blockLines_nil,
    indent_eq hlow hmax, hdrop]

/-- The import of the required module, unless there is one. -/
theorem imports_eq (ctx : Context) :
    imports snippets ctx = .ok (if ctx.importedModules.contains "ballerina/http".toList then []
      else "import ballerina/http;\n".toList) := by
  have hsnippet : snippets "imports.bal".toList = .ok Snippet.imports :=
    hs _ (Snippet.mem_bundled ("imports.bal".toList, Snippet.imports, _) (.head _))
  have hrender : render Snippet.imports [("modules".toList, .texts requiredImports)]
      = .ok "import ballerina/http;\n".toList := by
    simp only [Snippet.imports, Snippet.lines, List.flatMap_cons, List.flatMap_nil,
      requiredImports]
    repeat rw [String.toList_ofList]
    rfl
  cases himported : ctx.importedModules.contains "ballerina/http".toList with
  | true =>
    have hfilter : requiredImports.filter (fun m => !ctx.importedModules.contains m) = [] := by
      rw [requiredImports, List.filter_cons_of_neg (by rw [himported]; decide), List.filter_nil]
    rw [imports, hfilter]
    rfl
  | false =>
    have hfilter : requiredImports.filter (fun m => !ctx.importedModules.contains m)
        = requiredImports := by
      rw [requiredImports, List.filter_cons_of_pos (by rw [himported]; decide), List.filter_nil]
    simp only [imports, hfilter, renderSnippet, hsnippet, bind, Except.bind, hrender,
      Except.mapError]
    rfl

theorem exists_closed_imports (ctx : Context) :
    ∃ f, imports snippets ctx = .ok f ∧ ClosedImports f := by
  refine ⟨_, imports_eq hs ctx, ?_⟩
  split_ifs
  · exact .inl rfl
  · have hrun : ((Tree.parse "import ballerina/http;\n".toList).toOption.any fun tree =>
        tree.root.children.all (·.kind = .importDeclaration)) = true := by decide +kernel
    obtain ⟨tree, hparse, hall⟩ := exists_of_any hrun
    exact .inr ⟨by decide, tree, hparse, by simpa using hall⟩

end Bundled

end Fragment

end BalMediation
