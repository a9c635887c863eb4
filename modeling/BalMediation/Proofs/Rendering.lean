import BalMediation.Fragment.Templated
import BalMediation.Proofs.Segments

/-!
# Rendering

A template can be filled in with values that have all of its names (`exists_fill`). The bundled
snippets are given such values, so a generator that renders them answers every question whose
margin fits into memory, and no other (`answer_ok_iff`).
-/

namespace BalMediation

/-- Whether the value has items. -/
def Value.hasItems : Value → Bool
  | text _ | texts _ => true
  | loop _ _ | template | builtin _ _ => false

theorem Value.exists_items {v : Value} (h : v.hasItems = true) : ∃ ts, v.items = .ok ts := by
  cases v <;> first | exact ⟨_, rfl⟩ | cases h

namespace Template

/-- The names of values, and which of them have items. -/
def sorts (values : List (Text × Value)) : List (Text × Bool) :=
  values.map fun v => (v.1, v.2.hasItems)

mutual

/-- Whether a part only uses names that are known, and loops only over those that have items. -/
def partFits (names : List (Text × Bool)) : Part → Bool
  | .text _ => true
  | .print name => (names.find? (·.1 = name)).isSome
  | .each item list body =>
    (names.find? (·.1 = list)).any Prod.snd
      && fits ((item, true) :: (loopName, false) :: names) body

/-- Whether parts only use names that are known. -/
def fits (names : List (Text × Bool)) : List Part → Bool
  | [] => true
  | p :: ps => partFits names p && fits names ps

end

theorem lookup_of_sorts {values : List (Text × Value)} {name : Text} {s : Text × Bool}
    (h : (sorts values).find? (·.1 = name) = some s) :
    ∃ v, lookup values name = .ok v ∧ v.hasItems = s.2 := by
  rw [sorts, List.find?_map] at h
  obtain ⟨v, hv, rfl⟩ := Option.map_eq_some_iff.1 h
  have hv : values.find? (·.1 = name) = some v := hv
  exact ⟨v.2, by rw [lookup, hv], rfl⟩

mutual

theorem exists_fillPart : ∀ (p : Part) (values : List (Text × Value)),
    partFits (sorts values) p = true → ∃ t, fillPart values p = .ok t
  | .text t, values, _ => ⟨t, by rw [fillPart]⟩
  | .print name, values, h => by
    rw [partFits] at h
    obtain ⟨s, hs⟩ := Option.isSome_iff_exists.1 h
    obtain ⟨v, hv, -⟩ := lookup_of_sorts hs
    exact ⟨v.print, by rw [fillPart, hv]; rfl⟩
  | .each item list body, values, h => by
    rw [partFits, Bool.and_eq_true, Option.any_eq_true] at h
    obtain ⟨⟨s, hs, hitems⟩, hbody⟩ := h
    obtain ⟨v, hv, hvs⟩ := lookup_of_sorts hs
    obtain ⟨ts, hts⟩ := v.exists_items (hvs.trans hitems)
    have hrounds : ∃ rounds, ts.zipIdx.mapM (fun (t, k) =>
        fill ((item, .text t) :: (loopName, .loop (k + 1) ts.length) :: values) body)
          = .ok rounds :=
      exists_mapM fun a _ => exists_fill body _ hbody
    obtain ⟨rounds, hrounds⟩ := hrounds
    refine ⟨rounds.flatten, ?_⟩
    rw [fillPart, hv]
    simp only [bind, Except.bind, hts] at hrounds ⊢
    rw [hrounds]
    rfl

/-- Parts that only use names of the values can be filled in. -/
theorem exists_fill : ∀ (ps : List Part) (values : List (Text × Value)),
    fits (sorts values) ps = true → ∃ t, fill values ps = .ok t
  | [], values, _ => ⟨[], by rw [fill]⟩
  | p :: ps, values, h => by
    rw [fits, Bool.and_eq_true] at h
    obtain ⟨first, hfirst⟩ := exists_fillPart p values h.1
    obtain ⟨rest, hrest⟩ := exists_fill ps values h.2
    refine ⟨first ++ rest, ?_⟩
    rw [fill, hfirst, hrest]
    rfl

end

end Template

/-! ## Bundled snippets -/

theorem Text.unifyNewlines_eq_self {t : Text} (h : '\r' ∉ t) : t.unifyNewlines = t := by
  induction t with
  | nil => rfl
  | cons c t ih =>
    rw [List.mem_cons, not_or] at h
    rw [unifyNewlines]
    · rw [ih h.2, if_neg (by simpa using Ne.symm h.1)]
    · intro _ hc
      exact absurd hc.symm h.1

namespace Snippet

/-- The templates, each with the names that it is rendered with. -/
def templates : List (Text × Text × List Text) := [
  ("imports.bal".toList, imports, ["modules".toList]),
  ("context_record.bal".toList, contextRecord,
    ["context".toList, "method".toList, "resource_path".toList, "service_path".toList]),
  ("inflow_template.bal".toList, inflowTemplate,
    ["hook".toList, "context".toList, "request".toList]),
  ("outflow_template.bal".toList, outflowTemplate,
    ["hook".toList, "context".toList, "response".toList]),
  ("mediation_block.bal".toList, mediationBlock,
    ["context".toList, "request".toList, "response".toList, "inflow_calls".toList,
      "outflow_calls".toList])]

theorem mem_bundled : ∀ s ∈ templates, (s.1, s.2.1) ∈ bundled := by
  simp [templates, bundled]

-- A literal that is spelled out is far cheaper to compute with than its decoded form.
theorem fits_templates : ∀ s ∈ templates,
    (Template.parse s.2.1).toOption.any
      (Template.fits (s.2.2.map fun name => (name, true))) = true := by
  simp only [templates, imports, contextRecord, inflowTemplate, outflowTemplate, mediationBlock,
    lines, List.flatMap_cons, List.flatMap_nil]
  repeat rw [String.toList_ofList]
  decide +kernel

theorem not_mem_bundled : ∀ s ∈ bundled, '\r' ∉ s.2 := by
  simp only [bundled, boilerplate, imports, contextRecord, inflowTemplate, outflowTemplate,
    mediationBlock, lines, List.flatMap_cons, List.flatMap_nil]
  repeat rw [String.toList_ofList]
  decide +kernel

theorem find?_bundledFiles : ∀ s ∈ bundled,
    bundledFiles.find? [] ((Path.ofText "snippets".toList).child s.1)
      = .ok (some (.text s.2)) := by
  intro s hs
  simp only [bundled, List.mem_cons, List.not_mem_nil, or_false] at hs
  rcases hs with rfl | rfl | rfl | rfl | rfl | rfl <;> rfl

theorem read_bundled (fs : FileSystem) (here : List Text) :
    ∀ s ∈ bundled, SnippetLocation.bundled.read fs here s.1 = .ok s.2 := by
  intro s hs
  rw [SnippetLocation.read, SnippetLocation.content?, find?_bundledFiles s hs]
  simp only [Content.text?, Content.text, Text.unifyNewlines_eq_self (not_mem_bundled s hs)]

end Snippet

namespace Fragment

open Template

section Bundled

variable {snippets : Snippets} (hs : ∀ s ∈ Snippet.bundled, snippets s.1 = .ok s.2)

include hs

theorem exists_renderSnippet {s : Text × Text × List Text} (h : s ∈ Snippet.templates)
    {values : List (Text × Value)} (hv : sorts values = s.2.2.map fun name => (name, true)) :
    ∃ t, renderSnippet snippets s.1 values = .ok t := by
  have hsnippet : snippets s.1 = .ok s.2.1 := hs _ (Snippet.mem_bundled s h)
  have hfits := Snippet.fits_templates s h
  rw [← hv] at hfits
  obtain ⟨parts, hparse, hfits⟩ := exists_of_any hfits
  obtain ⟨t, ht⟩ := exists_fill parts values hfits
  refine ⟨t, ?_⟩
  simp [renderSnippet, render, hsnippet, hparse, ht, bind, Except.bind, Except.mapError]

theorem exists_rendered {s : Text × Text × List Text} (h : s ∈ Snippet.templates)
    {values : List (Text × Value)} (hv : sorts values = s.2.2.map fun name => (name, true))
    (f : Text → Except Error Text) : ∃ t, (renderSnippet snippets s.1 values >>= f) = f t := by
  obtain ⟨t, ht⟩ := exists_renderSnippet hs h hv
  exact ⟨t, by rw [ht]; rfl⟩

theorem exists_imports (ctx : Context) : ∃ t, imports snippets ctx = .ok t := by
  simp only [imports]
  split_ifs
  · exact ⟨[], rfl⟩
  · exact exists_renderSnippet hs (s := ("imports.bal".toList, Snippet.imports, _))
      (.head _) rfl

theorem record_eq (width level : Int) (ctx : Context) :
    ∃ t, record snippets width ctx level = indent width level t := by
  simp only [record]
  exact exists_rendered hs (s := ("context_record.bal".toList, Snippet.contextRecord, _))
    (.tail _ (.head _)) (by rfl) _

theorem exists_inflowCall (request hook : Text) :
    ∃ t, inflowCall snippets request hook = .ok t := by
  have hcall : ∃ t : Text, inflowCall snippets request hook = .ok t.trim := by
    simp only [inflowCall]
    exact exists_rendered hs (s := ("inflow_template.bal".toList, Snippet.inflowTemplate, _))
      (.tail _ (.tail _ (.head _))) (by rfl) _
  obtain ⟨t, ht⟩ := hcall
  exact ⟨t.trim, ht⟩

theorem exists_outflowCall (hook : Text) : ∃ t, outflowCall snippets hook = .ok t := by
  have hcall : ∃ t : Text, outflowCall snippets hook = .ok t.trim := by
    simp only [outflowCall]
    exact exists_rendered hs (s := ("outflow_template.bal".toList, Snippet.outflowTemplate, _))
      (.tail _ (.tail _ (.tail _ (.head _)))) (by rfl) _
  obtain ⟨t, ht⟩ := hcall
  exact ⟨t.trim, ht⟩

theorem block_eq (hooks : Hooks) (ctx : Context) (level : Int) :
    ∃ t, block snippets hooks ctx level = indent hooks.indentWidth level t := by
  have hinflow : ∃ calls, hooks.inflow.mapM (inflowCall snippets (requestName ctx)) = .ok calls :=
    exists_mapM fun hook _ => exists_inflowCall hs (requestName ctx) hook
  have houtflow : ∃ calls, hooks.outflow.mapM (outflowCall snippets) = .ok calls :=
    exists_mapM fun hook _ => exists_outflowCall hs hook
  obtain ⟨inflow, hinflow⟩ := hinflow
  obtain ⟨outflow, houtflow⟩ := houtflow
  simp only [block, hinflow, houtflow]
  exact exists_rendered hs (s := ("mediation_block.bal".toList, Snippet.mediationBlock, _))
    (.tail _ (.tail _ (.tail _ (.tail _ (.head _))))) (by rfl) _

end Bundled

/-- Only a margin that is too wide stands in the way of a text. -/
theorem indent_ok_iff {width level : Int} (h : 0 ≤ width * level) (t : Text) :
    (∃ u, indent width level t = .ok u) ↔ width * level ≤ maxMargin := by
  unfold indent
  have hmax : maxMargin ≤ maxCount := by decide
  have hmin : -maxCount - 1 < 0 := by decide
  simp only [Bool.or_eq_true, decide_eq_true_eq]
  split_ifs with h1 h2
  · simp only [exists_false, false_iff]
    omega
  · simp only [exists_false, false_iff]
    omega
  · simp only [Except.ok.injEq, exists_eq', true_iff]
    omega

end Fragment

/-- The margin at which the answer to a question stands. -/
def Request.margin (width : Int) : Request → Int
  | record _ level | block _ level => width * level
  | imports _ | params _ _ | returnType _ _ => 0

/-- A generator over the bundled snippets has an answer wherever the margin fits into memory. -/
theorem Generator.answer_ok_iff {snippets : Snippets}
    (hs : ∀ s ∈ Snippet.bundled, snippets s.1 = .ok s.2) {hooks : Hooks}
    (hw : 0 < hooks.indentWidth) (r : Request) :
    (∃ t, (Generator.templated snippets hooks).answer r = .ok t)
      ↔ r.margin hooks.indentWidth ≤ Fragment.maxMargin := by
  have hmargin : ∀ level : Nat, 0 ≤ hooks.indentWidth * level := fun level =>
    Int.mul_nonneg (Int.le_of_lt hw) (Int.natCast_nonneg level)
  have hzero : (0 : Int) ≤ Fragment.maxMargin := by decide
  cases r with
  | imports ctx => exact iff_of_true (Fragment.exists_imports hs ctx) hzero
  | params signature ctx => exact iff_of_true ⟨_, rfl⟩ hzero
  | returnType type ctx => exact iff_of_true ⟨_, rfl⟩ hzero
  | record ctx level =>
    obtain ⟨t, ht⟩ := Fragment.record_eq hs hooks.indentWidth level ctx
    simp only [answer, templated, ht]
    exact Fragment.indent_ok_iff (hmargin level) t
  | block ctx level =>
    obtain ⟨t, ht⟩ := Fragment.block_eq hs hooks ctx level
    simp only [answer, templated, ht]
    exact Fragment.indent_ok_iff (hmargin level) t

end BalMediation
