import BalMediation.Context
import BalMediation.Proofs.Reading
import BalMediation.Proofs.ResourcePaths
import Mathlib.Data.List.TakeWhile

/-!
# Service paths

The path that a service is attached to is cut at white space and unescaped piece by piece, a
resource path is cut at slashes and unescaped segment by segment. On a path of slashes and
identifiers both give the names of the identifiers, but a piece loses a quote only at its beginning:
a quoted identifier right behind its slash keeps the quote (`attachPath_spell`). So the two agree
exactly if white space stands in front of every quoted identifier (`servicePath_eq_render_iff`).
-/

namespace BalMediation

open Lexer ResourcePath

/-! ## Pieces of a text -/

namespace Text

theorem isBlank_of_isSpace {c : Char} (h : isSpace c = true) : isBlank c = true := by
  have hc : c = ' ' ∨ c = '\t' ∨ c = '\r' ∨ c = '\n' := by simpa [isSpace, or_assoc] using h
  rcases hc with rfl | rfl | rfl | rfl <;> rfl

theorem words_append {c : Char} (hc : isBlank c = true) (a b : Text) :
    words (a ++ c :: b) = words a ++ words b := by
  rw [words, splitWhere_append hc, List.filter_append]
  rfl

theorem words_cons {c : Char} (hc : isBlank c = true) (t : Text) : words (c :: t) = words t := by
  simpa [words, splitWhere] using words_append hc [] t

theorem words_of_solid {t : Text} (hne : t ≠ []) (h : ∀ c ∈ t, isBlank c = false) :
    words t = [t] := by
  rw [words, splitWhere_of_forall h]
  simp [hne]

/-- A piece goes on up to the next blank. -/
theorem words_solid_append {u : Text} (hne : u ≠ []) (h : ∀ c ∈ u, isBlank c = false) (t : Text) :
    words (u ++ t) = (u ++ t.takeWhile (!isBlank ·)) :: words (t.dropWhile (!isBlank ·)) := by
  have hsolid : ∀ c ∈ u ++ t.takeWhile (!isBlank ·), isBlank c = false := by
    intro c hc
    rcases List.mem_append.1 hc with hc | hc
    · exact h c hc
    · simpa using List.all_eq_true.1 List.all_takeWhile c hc
  have hfirst := words_of_solid (by simp [hne]) hsolid
  have hsplit : u ++ t = (u ++ t.takeWhile (!isBlank ·)) ++ t.dropWhile (!isBlank ·) := by
    rw [List.append_assoc, List.takeWhile_append_dropWhile]
  have hhead := List.head?_dropWhile_not (!isBlank ·) t
  rw [hsplit]
  cases hd : t.dropWhile (!isBlank ·) with
  | nil => simpa [words, splitWhere] using hfirst
  | cons c v =>
    have hc : isBlank c = true := by simpa [hd] using hhead
    rw [words_append hc, hfirst, words_cons hc]
    rfl

/-- The pieces of a text between blanks, unescaped, one behind the other. -/
def unescapePieces (t : Text) : Text :=
  t.words.flatMap unescape

/-- The same for a text that begins inside a piece: up to the next blank it loses only escapes. -/
def unescapeInside (t : Text) : Text :=
  dropEscapes (t.takeWhile (!isBlank ·)) ++ unescapePieces (t.dropWhile (!isBlank ·))

theorem unescapePieces_blank {g : Text} (h : ∀ c ∈ g, isBlank c = true) (t : Text) :
    unescapePieces (g ++ t) = unescapePieces t := by
  induction g with
  | nil => rfl
  | cons c g ih =>
    rw [← ih fun d hd => h d (List.mem_cons_of_mem c hd), List.cons_append, unescapePieces,
      words_cons (h c List.mem_cons_self), unescapePieces]

/-- Behind a blank a new piece begins. -/
theorem unescapeInside_blank {g : Text} (h : ∀ c ∈ g, isBlank c = true) (hne : g ≠ []) (t : Text) :
    unescapeInside (g ++ t) = unescapePieces t := by
  obtain ⟨c, v, rfl⟩ := List.exists_cons_of_ne_nil hne
  have hc := h c List.mem_cons_self
  rw [unescapeInside, List.cons_append, List.takeWhile_cons_of_neg (by simp [hc]),
    List.dropWhile_cons_of_neg (by simp [hc]), ← List.cons_append, unescapePieces_blank h]
  rfl

theorem unescapePieces_solid {u : Text} (hne : u ≠ []) (h : ∀ c ∈ u, isBlank c = false)
    (t : Text) :
    unescapePieces (u ++ t)
      = unescape (u ++ t.takeWhile (!isBlank ·)) ++ unescapePieces (t.dropWhile (!isBlank ·)) := by
  rw [unescapePieces, words_solid_append hne h, List.flatMap_cons]
  rfl

theorem unescapeInside_solid {u : Text} (h : ∀ c ∈ u, isBlank c = false) (t : Text) :
    unescapeInside (u ++ t)
      = dropEscapes (u ++ t.takeWhile (!isBlank ·))
        ++ unescapePieces (t.dropWhile (!isBlank ·)) := by
  have hu : ∀ c ∈ u, (!isBlank c) = true := by simpa using h
  rw [unescapeInside, List.takeWhile_append_of_pos hu, List.dropWhile_append_of_pos hu]

theorem unescapePieces_slash (t : Text) : unescapePieces ('/' :: t) = '/' :: unescapeInside t := by
  have h := unescapePieces_solid (List.cons_ne_nil '/' []) (List.forall_mem_singleton.2 rfl) t
  rwa [List.singleton_append, List.singleton_append, unescape,
    List.dropWhile_cons_of_neg (by decide), dropEscapes_cons (by decide)] at h

theorem unescapeInside_slash (t : Text) : unescapeInside ('/' :: t) = '/' :: unescapeInside t := by
  have h := unescapeInside_solid (List.forall_mem_singleton.2 (rfl : isBlank '/' = false)) t
  rwa [List.singleton_append, List.singleton_append, dropEscapes_cons (by decide)] at h

end Text

/-! ## Paths of identifiers -/

/-- A slash and an identifier behind it, with the white space in front of either. -/
structure PathStep where
  lead : Text
  gap : Text
  name : Identifier
  isSpace_lead : ∀ c ∈ lead, isSpace c = true
  isSpace_gap : ∀ c ∈ gap, isSpace c = true

namespace PathStep

/-- The two words of a step. -/
def words (s : PathStep) : List Word :=
  [⟨s.lead, ⟨.op, ['/']⟩⟩, ⟨s.gap, ⟨.ident, s.name.text⟩⟩]

/-- Whether the identifier escapes no slash, no bracket and no white space. -/
def Plain (s : PathStep) : Prop :=
  ∀ c ∈ s.name.text, c ≠ '/' ∧ c ≠ '[' ∧ c ≠ ']' ∧ Text.isBlank c = false

instance (s : PathStep) : Decidable s.Plain :=
  List.decidableBAll _ _

/-- Whether a quote stands right behind the slash. -/
def tight (s : PathStep) : Bool :=
  s.name.quoted && s.gap.isEmpty

/-- What a service path makes of a step. -/
def kept (s : PathStep) : Text :=
  '/' :: ((if s.tight then ['\''] else []) ++ s.name.name)

theorem isBlank_lead (s : PathStep) : ∀ c ∈ s.lead, Text.isBlank c = true :=
  fun c hc => Text.isBlank_of_isSpace (s.isSpace_lead c hc)

theorem isBlank_gap (s : PathStep) : ∀ c ∈ s.gap, Text.isBlank c = true :=
  fun c hc => Text.isBlank_of_isSpace (s.isSpace_gap c hc)

theorem spell_flatMap_cons (s : PathStep) (ss : List PathStep) :
    spell ((s :: ss).flatMap words)
      = s.lead ++ '/' :: (s.gap ++ (s.name.text ++ spell (ss.flatMap words))) := by
  simp [words]

section Plain

variable {s : PathStep}

theorem Plain.solid (h : s.Plain) : ∀ c ∈ s.name.text, Text.isBlank c = false :=
  fun c hc => (h c hc).2.2.2

theorem Plain.newline_not_mem (h : s.Plain) : '\n' ∉ s.name.text :=
  fun hm => absurd (h.solid _ hm) (by decide)

/-! ## The path of a service -/

theorem unescapePieces_name (h : s.Plain) (t : Text) :
    Text.unescapePieces (s.name.text ++ t) = s.name.name ++ t.unescapeInside := by
  rw [Text.unescapePieces_solid s.name.reads.ne_nil h.solid,
    Identifier.unescape_text_append h.newline_not_mem, List.append_assoc]
  rfl

theorem unescapeInside_name (h : s.Plain) (t : Text) :
    Text.unescapeInside (s.name.text ++ t)
      = (if s.name.quoted then ['\''] else []) ++ s.name.name ++ t.unescapeInside := by
  rw [Text.unescapeInside_solid h.solid, Identifier.dropEscapes_text_append h.newline_not_mem,
    List.append_assoc _ (Text.dropEscapes _)]
  rfl

theorem unescapeInside_step (h : s.Plain) (t : Text) :
    Text.unescapeInside (s.gap ++ (s.name.text ++ t))
      = (if s.tight then ['\''] else []) ++ s.name.name ++ t.unescapeInside := by
  by_cases hgap : s.gap = []
  · simpa [hgap, tight] using unescapeInside_name h t
  · rw [Text.unescapeInside_blank s.isBlank_gap hgap, unescapePieces_name h]
    simp [tight, hgap]

end Plain

theorem unescapeInside_spell {ss : List PathStep} (h : ∀ s ∈ ss, s.Plain) :
    Text.unescapeInside (spell (ss.flatMap words)) = ss.flatMap kept := by
  induction ss with
  | nil => rfl
  | cons s ss ih =>
    have hstep := unescapeInside_step (h s List.mem_cons_self) (spell (ss.flatMap words))
    rw [ih fun v hv => h v (List.mem_cons_of_mem s hv)] at hstep
    -- White space in front of the slash ends a piece, but the slash is taken as it is either way.
    have hslash : ∀ t, Text.unescapeInside (s.lead ++ '/' :: t) = '/' :: Text.unescapeInside t := by
      intro t
      by_cases hlead : s.lead = []
      · rw [hlead, List.nil_append, Text.unescapeInside_slash]
      · rw [Text.unescapeInside_blank s.isBlank_lead hlead, Text.unescapePieces_slash]
    rw [spell_flatMap_cons, hslash, hstep, List.flatMap_cons, kept, List.cons_append]

/-- A path of identifiers ends in a character of its last one. -/
theorem isBlank_last_spell {ss : List PathStep} (h : ∀ s ∈ ss, s.Plain) :
    ∀ c ∈ (spell (ss.flatMap words)).getLast?, Text.isBlank c = false := by
  intro c hc
  rcases List.eq_nil_or_concat ss with rfl | ⟨init, s, rfl⟩
  · cases hc
  · have hname : s.name.text ≠ [] := s.name.reads.ne_nil
    have hend : ∃ front, spell ((init ++ [s]).flatMap words) = front ++ s.name.text :=
      ⟨spell (init.flatMap words) ++ (s.lead ++ '/' :: s.gap), by simp [words]⟩
    obtain ⟨front, hend⟩ := hend
    rw [List.concat_eq_append, hend, List.getLast?_append_of_ne_nil _ hname] at hc
    exact (h s (by simp)).solid c (List.mem_of_mem_getLast? hc)

/-- A path of identifiers, as the path of a service. -/
theorem attachPath_spell {ss : List PathStep} (hne : ss ≠ []) (h : ∀ s ∈ ss, s.Plain) :
    Context.attachPath (spell (ss.flatMap words)) = ss.flatMap kept := by
  obtain ⟨s, ss, rfl⟩ := List.exists_cons_of_ne_nil hne
  have hlast := isBlank_last_spell h
  rw [spell_flatMap_cons, List.getLast?_append_of_ne_nil _ (List.cons_ne_nil _ _)] at hlast
  have htrim := Text.trim_append s.isBlank_lead (b := []) (by simp) (List.cons_ne_nil '/' _)
    (by rintro c ⟨⟩; rfl) hlast
  rw [List.append_nil, ← spell_flatMap_cons] at htrim
  have hpieces : Text.unescapePieces ('/' :: (s.gap ++ (s.name.text
      ++ spell (ss.flatMap words)))) = (s :: ss).flatMap kept := by
    rw [Text.unescapePieces_slash, unescapeInside_step (h s List.mem_cons_self),
      unescapeInside_spell fun v hv => h v (List.mem_cons_of_mem s hv)]
    rfl
  rw [Context.attachPath, htrim]
  simp only [List.head?_cons, Option.some.injEq, Char.reduceEq, if_false]
  rw [← Text.unescapePieces, hpieces]
  simp [kept]

/-! ## The same path as a resource path -/

theorem bare_of_isSpace {c : Char} (h : isSpace c = true) : c ≠ '/' ∧ c ≠ '[' ∧ c ≠ ']' := by
  refine ⟨?_, ?_, ?_⟩ <;> rintro rfl <;> exact absurd h (by decide)

/-- A text without slashes and brackets is one segment, if it is not blank. -/
theorem segments_of_bare {t : Text} (h : ∀ c ∈ t, c ≠ '/' ∧ c ≠ '[' ∧ c ≠ ']') :
    t.count '[' = t.count ']' ∧ segments t = [t.trim].filter (!·.isEmpty) := by
  have hopen : '[' ∉ t := fun hm => (h _ hm).2.1 rfl
  have hclose : ']' ∉ t := fun hm => (h _ hm).2.2 rfl
  have huncut : Uncut t := fun n _ hn => absurd rfl (h _ (List.mem_of_getElem? hn)).1
  refine ⟨?_, segments_of_uncut huncut⟩
  rw [List.count_eq_zero_of_not_mem hopen, List.count_eq_zero_of_not_mem hclose]

theorem parts_blank {t : Text} (h : ∀ c ∈ t, isSpace c = true) :
    t.count '[' = t.count ']' ∧ parts t = [] := by
  obtain ⟨hcount, hsegments⟩ := segments_of_bare fun c hc => bare_of_isSpace (h c hc)
  have hdrop : t.dropWhile Text.isBlank = [] :=
    List.dropWhile_eq_nil_iff.2 fun c hc => Text.isBlank_of_isSpace (h c hc)
  have htrim : Text.trim t = [] := by
    rw [Text.trim, Text.dropWhileBoth, hdrop]
    rfl
  refine ⟨hcount, ?_⟩
  rw [parts, hsegments, htrim]
  rfl

/-- An identifier with white space around it is one segment. -/
theorem parts_name {s : PathStep} (h : s.Plain) {a b : Text} (ha : ∀ c ∈ a, isSpace c = true)
    (hb : ∀ c ∈ b, isSpace c = true) :
    (a ++ s.name.text ++ b).count '[' = (a ++ s.name.text ++ b).count ']'
      ∧ parts (a ++ s.name.text ++ b) = [s.name.name] := by
  have hbare : ∀ c ∈ a ++ s.name.text ++ b, c ≠ '/' ∧ c ≠ '[' ∧ c ≠ ']' := by
    intro c hc
    rw [List.mem_append, List.mem_append] at hc
    rcases hc with (hc | hc) | hc
    · exact bare_of_isSpace (ha c hc)
    · exact ⟨(h c hc).1, (h c hc).2.1, (h c hc).2.2.1⟩
    · exact bare_of_isSpace (hb c hc)
  obtain ⟨hcount, hsegments⟩ := segments_of_bare hbare
  have hne : s.name.text ≠ [] := s.name.reads.ne_nil
  have htrim := Text.trim_append (fun c hc => Text.isBlank_of_isSpace (ha c hc))
    (fun c hc => Text.isBlank_of_isSpace (hb c hc)) hne s.name.isBlank_head
    fun c hc => h.solid c (List.mem_of_mem_getLast? hc)
  obtain ⟨hdot, hrender⟩ := renderSegment_literal h.newline_not_mem
  refine ⟨hcount, ?_⟩
  rw [parts, hsegments, htrim]
  simp [hne, hdot, hrender]

theorem parts_spell {s : PathStep} (hs : s.Plain) {ss : List PathStep} (h : ∀ s ∈ ss, s.Plain)
    {a : Text} (ha : ∀ c ∈ a, isSpace c = true) :
    parts (a ++ (s.name.text ++ spell (ss.flatMap words)))
      = s.name.name :: ss.map (·.name.name) := by
  induction ss generalizing s a with
  | nil => simpa using (parts_name hs ha (b := []) (by simp)).2
  | cons v ss ih =>
    obtain ⟨hcount, hparts⟩ := parts_name hs ha v.isSpace_lead
    have hrest := ih (h v List.mem_cons_self) (fun w hw => h w (List.mem_cons_of_mem v hw))
      v.isSpace_gap
    rw [spell_flatMap_cons, ← List.append_assoc, ← List.append_assoc, parts_append hcount, hparts,
      hrest]
    rfl

/-- A path of identifiers, as the path of a resource. -/
theorem render_spell {ss : List PathStep} (hne : ss ≠ []) (h : ∀ s ∈ ss, s.Plain) :
    render (spell (ss.flatMap words)) = ss.flatMap fun s => '/' :: s.name.name := by
  obtain ⟨s, ss, rfl⟩ := List.exists_cons_of_ne_nil hne
  have hparts := parts_spell (h s List.mem_cons_self) (fun v hv => h v (List.mem_cons_of_mem s hv))
    s.isSpace_gap
  obtain ⟨hcount, hnone⟩ := parts_blank s.isSpace_lead
  rw [spell_flatMap_cons, render_eq, parts_append hcount, hnone, hparts, List.nil_append,
    Text.join_cons]
  simp [List.flatMap_map]

theorem length_kept (ss : List PathStep) :
    (ss.flatMap kept).length
      = (ss.flatMap fun s => '/' :: s.name.name).length + ss.countP tight := by
  induction ss with
  | nil => rfl
  | cons s ss ih =>
    rw [List.flatMap_cons, List.flatMap_cons, List.length_append, List.length_append, ih,
      List.countP_cons, kept]
    cases s.tight <;> simp <;> omega

end PathStep

/-- The path of a service and the same path as that of a resource agree, if no quoted identifier
stands right behind its slash, and only then. -/
theorem Context.servicePath_eq_render_iff {ctx : Context} {service path : Node}
    (hs : ctx.service? = some service)
    (hp : service.firstChild? .absoluteResourcePath = some path) {ss : List PathStep}
    (ht : path.text = spell (ss.flatMap PathStep.words)) (hne : ss ≠ []) (h : ∀ s ∈ ss, s.Plain) :
    ResourcePath.render path.text = ss.flatMap (fun s => '/' :: s.name.name)
      ∧ (ctx.servicePath = ResourcePath.render path.text
        ↔ ∀ s ∈ ss, s.name.quoted = true → s.gap ≠ []) := by
  have hrender := PathStep.render_spell hne h
  have hservice : ctx.servicePath = ss.flatMap PathStep.kept := by
    have hpath : ctx.service?.bind (·.firstChild? .absoluteResourcePath) = some path := by
      rw [hs, Option.bind_some, hp]
    have hfull : path.text ≠ [] := by
      obtain ⟨s, ss, rfl⟩ := List.exists_cons_of_ne_nil hne
      rw [ht, PathStep.spell_flatMap_cons]
      simp
    rw [servicePath, hpath, ← PathStep.attachPath_spell hne h, ← ht]
    simp [hfull]
  have htight : (∀ s ∈ ss, s.name.quoted = true → s.gap ≠ []) ↔ ∀ s ∈ ss, s.tight = false := by
    simp [PathStep.tight]
  rw [ht, hrender, hservice, htight]
  refine ⟨rfl, fun heq => ?_, fun hall => ?_⟩
  · -- Every quote that is kept makes the path of the service one character longer.
    have hlen := PathStep.length_kept ss
    rw [heq] at hlen
    have hcount : ss.countP PathStep.tight = 0 := by omega
    simpa [List.countP_eq_zero] using hcount
  · refine List.flatMap_congr fun s hmem => ?_
    simp [PathStep.kept, hall s hmem]

/-- White space in front of the quoted identifier, and an escape in the other. -/
theorem Context.servicePath_eq_render_spaced :
    let source : Text := "service / 'a\n/b\\-c on x \x7b\x7d".toList
    ∃ (tree : Tree) (service path : Node) (ss : List PathStep), Tree.parse source = .ok tree
      ∧ ((root tree.root).push service).service? = some service
      ∧ service.firstChild? .absoluteResourcePath = some path
      ∧ path.text = spell (ss.flatMap PathStep.words) ∧ ss ≠ [] ∧ (∀ s ∈ ss, s.Plain)
      ∧ (∀ s ∈ ss, s.name.quoted = true → s.gap ≠ [])
      ∧ ((root tree.root).push service).servicePath = ResourcePath.render path.text
      ∧ ResourcePath.render path.text = "/a/b-c".toList := by
  intro source
  let a : Identifier := ⟨"'a".toList, by decide +kernel⟩
  let b : Identifier := ⟨"b\\-c".toList, by decide +kernel⟩
  let ss : List PathStep := [⟨[], [' '], a, by simp, by simp [isSpace]⟩,
    ⟨['\n'], [], b, by simp [isSpace], by simp⟩]
  have hplain : ∀ s ∈ ss, s.Plain := by decide +kernel
  have hspaced : ∀ s ∈ ss, s.name.quoted = true → s.gap ≠ [] := by decide
  have hrun : ((Tree.parse source).toOption.any fun tree =>
      (tree.root.firstChild? .serviceDeclaration).any fun service =>
        (service.firstChild? .absoluteResourcePath).any fun path =>
          path.text = spell (ss.flatMap PathStep.words)) = true := by
    simp only [source]
    rw [String.toList_ofList]
    decide +kernel
  obtain ⟨tree, hparse, hrun⟩ := exists_of_any hrun
  obtain ⟨service, hservice, hrun⟩ := (Option.any_eq_true _ _).1 hrun
  obtain ⟨path, hpath, hrun⟩ := (Option.any_eq_true _ _).1 hrun
  have hkind : service.kind = .serviceDeclaration := by simpa using List.find?_some hservice
  have hfound : ((root tree.root).push service).service? = some service := by
    simp [service?, nearest?, chain, push, hkind]
  have htext : path.text = spell (ss.flatMap PathStep.words) := by simpa using hrun
  obtain ⟨hrender, hiff⟩ := servicePath_eq_render_iff hfound hpath htext (by simp [ss]) hplain
  refine ⟨tree, service, path, ss, hparse, hfound, hpath, htext, by simp [ss], hplain, hspaced,
    hiff.2 hspaced, hrender.trans ?_⟩
  decide +kernel

/-- The quote right behind the slash stays in the path of the service. -/
theorem Context.servicePath_ne_render_quoted :
    let source : Text := "service /'a on x \x7b\x7d".toList
    ∃ (tree : Tree) (service path : Node), Tree.parse source = .ok tree
      ∧ tree.root.firstChild? .serviceDeclaration = some service
      ∧ service.firstChild? .absoluteResourcePath = some path ∧ path.text = "/'a".toList
      ∧ ((root tree.root).push service).servicePath = "/'a".toList
      ∧ ResourcePath.render path.text = "/a".toList := by
  intro source
  have hrun : ((Tree.parse source).toOption.any fun tree =>
      (tree.root.firstChild? .serviceDeclaration).any fun service =>
        (service.firstChild? .absoluteResourcePath).any fun path =>
          path.text = "/'a".toList
            ∧ ((root tree.root).push service).servicePath = "/'a".toList
            ∧ ResourcePath.render path.text = "/a".toList) = true := by
    simp only [source]
    rw [String.toList_ofList]
    decide +kernel
  obtain ⟨tree, hparse, hrun⟩ := exists_of_any hrun
  obtain ⟨service, hservice, hrun⟩ := (Option.any_eq_true _ _).1 hrun
  obtain ⟨path, hpath, hrun⟩ := (Option.any_eq_true _ _).1 hrun
  exact ⟨tree, service, path, hparse, hservice, hpath, by simpa using hrun⟩

end BalMediation
