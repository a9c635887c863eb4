import BalMediation.Proofs.Batches
import BalMediation.Proofs.Insets

/-!
# Remaking a source

If the answers of a generator make another resource of each resource of a source (`Remakes`), they
make another module of the module: its members stay as they are, except for the resources of its
services (`exists_remade`). What is wanted of a resource and what comes of it, `R`, is left open.
-/

namespace BalMediation

open Lexer Segment Branch Cursor

namespace Phrase

/-- Items that differ in their members only. -/
inductive Item.Rel {M : Type} (R : M → M → Prop) : Item M → Item M → Prop
  | semicolon (w : Word) : Rel R (.semicolon w) (.semicolon w)
  | member {m m' : M} : R m m' → Rel R (.member m) (.member m')

/-- Members of a service that are the same, unless they are resources. -/
inductive ServiceMember.Rel (R : Definition → Definition → Prop) :
    ServiceMember → ServiceMember → Prop
  | other (o : Other) : Rel R (.other o) (.other o)
  | method {d : Definition} : d.leading.memberKind ≠ .resourceAccessorDefinition →
      Rel R (.function d) (.function d)
  | resource {d d' : Definition} : d.leading.memberKind = .resourceAccessorDefinition →
      d'.leading = d.leading → R d d' → Rel R (.function d) (.function d')

/-- Members of a module that are the same but for the resources of a service. -/
inductive ModuleMember.Rel (R : Definition → Definition → Prop) :
    ModuleMember → ModuleMember → Prop
  | declaration (i : Import) : Rel R (.declaration i) (.declaration i)
  | function (d : Definition) : Rel R (.function d) (.function d)
  | other (o : Other) : Rel R (.other o) (.other o)
  | service (leading : Leading) {s : Service} {items : List (Item ServiceMember)} :
      List.Forall₂ (Item.Rel (ServiceMember.Rel R)) s.items items →
      Rel R (.service leading s) (.service leading { s with items })

/-- The words `ws` stand in a source behind `before` and in front of `t`. -/
structure Placed (source before : Text) (ws : List Word) (t : Text) : Prop where
  text : source = before ++ (spell ws ++ t)
  exists_words : ∃ pre, before = spell pre ∧ Legible (pre ++ ws) t

namespace Placed

variable {source before t : Text} {ws as bs : List Word}

theorem legible (h : Placed source before ws t) : Legible ws t := by
  obtain ⟨pre, -, hl⟩ := h.exists_words
  exact (legible_append.1 hl).2

theorem left (h : Placed source before (as ++ bs) t) : Placed source before as (spell bs ++ t) := by
  obtain ⟨pre, hpre, hl⟩ := h.exists_words
  rw [← List.append_assoc, legible_append] at hl
  exact ⟨by simp [h.text], pre, hpre, hl.1⟩

theorem right (h : Placed source before (as ++ bs) t) : Placed source (before ++ spell as) bs t := by
  obtain ⟨pre, rfl, hl⟩ := h.exists_words
  exact ⟨by simp [h.text], pre ++ as, by simp, by simpa using hl⟩

end Placed

/-! ## Resources -/

variable {g : Generator} {Q : Request → Prop} {source t : Text} {width : Nat}
  {R : Definition → Definition → Prop}

/-- Whether the answers to suitable questions make another resource of each resource of a source. -/
def Remakes (g : Generator) (Q : Request → Prop) (source : Text) (width : Nat)
    (R : Definition → Definition → Prop) : Prop :=
  ∀ {d : Definition} {before next t : Text} {ctx : Context},
    d.Valid memberQualifiers .resourceAccessorDefinition → Placed source before d.words t →
    ctx.node = d.node .resourceAccessorDefinition before next →
    (∀ r ∈ (d.segments width before next ctx).flatMap requests, Q r) →
    ∃ d' : Definition, d'.leading = d.leading
      ∧ d'.Valid memberQualifiers .resourceAccessorDefinition ∧ Mends t d.words d'.words
      ∧ patchedAll g (d.segments width before next ctx) = .ok (spell d'.words) ∧ R d d'

/-- A resource with another signature and another body. -/
def Definition.remade (d : Definition) (s : Signature) (b : Body) : Definition :=
  ⟨d.leading, { d.function with signature := s, body := b }⟩

theorem Definition.Valid.remade {d : Definition} {allowed : List Text} {kind : Kind}
    (h : d.Valid allowed kind) {s : Signature} {b : Body} (hs : s.Valid (lexemes b.words))
    (hb : b.Valid) : (d.remade s b).Valid allowed kind :=
  ⟨h.leading.congr (.of_take rfl), { h.function with signature := hs, body := hb }⟩

theorem Definition.mends_remade {d : Definition} (hl : Legible d.words t) {s : Signature}
    {b : Body} (hm : Mends t (d.function.signature.words ++ d.function.body.words)
      (s.words ++ b.words)) : Mends t d.words (d.remade s b).words := by
  rw [words_eq, legible_append] at hl
  rw [words_eq, words_eq]
  exact (Mends.refl hl.1).append hm

theorem Definition.patchedAll_remade {d : Definition} {before next : Text} {ctx : Context}
    {s : Signature} {b : Body}
    (hs : patchedAll g (d.function.signature.segments (before ++ spell d.front)
      (gapBefore next d.function.body.words) (ctx.push (d.function.signature.node
        (before ++ spell d.front) (gapBefore next d.function.body.words)))) = .ok (spell s.words))
    (hb : patchedAll g (d.function.body.segments width
      (before ++ spell d.front ++ spell d.function.signature.words) next ctx)
        = .ok (spell b.words)) :
    patchedAll g (d.segments width before next ctx) = .ok (spell (d.remade s b).words) := by
  rw [words_eq, spell_append, spell_append]
  exact patchedAll_cons rfl (patchedAll_append hs hb)

/-! ## Members -/

/-- The member `m'` stands for `m` behind `p`, in front of `rest` and of the text `t`, and is what
comes of the segments. -/
structure Grammar.Remade {M : Type} (G : Grammar M) (g : Generator) (p : Option Lexeme)
    (rest : List Lexeme) (t : Text) (segs : List Segment) (m m' : M) : Prop where
  valid : G.Valid p m' rest
  mends : Mends t (G.branch m).words (G.branch m').words
  patched : patchedAll g segs = .ok (spell (G.branch m').words)

theorem Grammar.Remade.refl {M : Type} {G : Grammar M} {p : Option Lexeme} {rest : List Lexeme}
    {m : M} {ws : List Word} (h : G.Valid p m rest) (hl : Legible (G.branch m).words t)
    (hw : (G.branch m).words = ws) : G.Remade g p rest t [.kept (spell ws)] m m :=
  ⟨h, .refl hl, (patchedAll_cons rfl rfl).trans (by simp [hw])⟩

theorem Grammar.remake {M : Type} {G : Grammar M} (hG : G.Local) {R : M → M → Prop}
    {seg : M → Text → Text → List Segment}
    (hm : ∀ {p : Option Lexeme} {m : M} {rest : List Lexeme} {t : Text} (before next : Text),
      G.Valid p m rest → Placed source before (G.branch m).words t →
      (∀ r ∈ (seg m before next).flatMap requests, Q r) →
      ∃ m', G.Remade g p rest t (seg m before next) m m' ∧ R m m')
    {items : List (Item M)} {p : Option Lexeme} {rest : List Lexeme} (before next : Text)
    (h : G.AllValid p items rest) (hs : Placed source before (G.words items) t)
    (hq : ∀ r ∈ (G.segments seg before next items).flatMap requests, Q r) :
    ∃ items', G.AllValid p items' rest ∧ Mends t (G.words items) (G.words items')
      ∧ patchedAll g (G.segments seg before next items) = .ok (spell (G.words items'))
      ∧ List.Forall₂ (Item.Rel R) items items' := by
  induction items generalizing p before with
  | nil => exact ⟨[], trivial, .refl trivial, by simp [segments, patchedAll], .nil⟩
  | cons item items ih =>
    cases item with
    | semicolon w =>
      rw [segments, List.flatMap_cons, List.forall_mem_append] at hq
      rw [words_semicolon] at hs
      have hs : Placed source before ([w] ++ G.words items) t := hs
      obtain ⟨items', hv, hmends, hp, hr⟩ := ih (before ++ spell [w]) h.2 hs.right hq.2
      refine ⟨.semicolon w :: items', ⟨h.1, hv⟩, ?_, ?_, .cons (.semicolon w) hr⟩
      · rw [words_semicolon, words_semicolon]
        exact (Mends.refl hs.left.legible).append hmends
      · rw [words_semicolon]
        exact (patchedAll_cons rfl hp).trans (by simp)
    | member m =>
      rw [segments, List.flatMap_append, List.forall_mem_append] at hq
      rw [words_member] at hs
      obtain ⟨hb, hvalid, hitems⟩ := h
      obtain ⟨m', hm', hrm⟩ := hm before _ hvalid hs.left hq.1
      obtain ⟨items', hv, hmends, hp, hr⟩ := ih _ hitems hs.right hq.2
      refine ⟨.member m' :: items', ⟨?_, ?_, ?_⟩, ?_, ?_, .cons (.member hrm) hr⟩
      · unfold Begins at hb ⊢
        rwa [hm'.mends.first]
      · refine hG hm'.valid rfl ?_
        rw [startsOp, startsOp, List.head?_append, List.head?_append, hmends.first]
      · rw [hm'.mends.last]
        exact hv
      · rw [words_member, words_member]
        exact hm'.mends.append hmends
      · rw [segments, words_member, spell_append]
        exact patchedAll_append hm'.patched hp

theorem ServiceMember.remake (hd : Remakes g Q source width R) {ctx : Context} {p : Option Lexeme}
    {m : ServiceMember} {rest : List Lexeme} {t : Text} (before next : Text)
    (h : serviceGrammar.Valid p m rest)
    (hs : Placed source before (serviceGrammar.branch m).words t)
    (hq : ∀ r ∈ (m.segments width ctx before next).flatMap requests, Q r) :
    ∃ m', serviceGrammar.Remade g p rest t (m.segments width ctx before next) m m'
      ∧ ServiceMember.Rel R m m' := by
  cases m with
  | other o => exact ⟨.other o, .refl h hs.legible o.words_branch, .other o⟩
  | function d =>
    have hv : d.Valid memberQualifiers d.leading.memberKind := h
    by_cases hk : d.leading.memberKind = .resourceAccessorDefinition
    · rw [serviceGrammar_function, Definition.words_branch] at hs
      rw [segments, if_pos hk] at hq ⊢
      rw [hk] at hv
      obtain ⟨d', hlead, hv', hm, hp, hr⟩ := hd hv hs rfl hq
      have hk' : d'.leading.memberKind = .resourceAccessorDefinition := by rw [hlead, hk]
      refine ⟨.function d', ⟨?_, by simpa using hm, by simpa using hp⟩, .resource hk hlead hr⟩
      show d'.Valid memberQualifiers d'.leading.memberKind
      rw [hk']
      exact hv'
    · rw [segments, if_neg hk]
      exact ⟨.function d, .refl h hs.legible (d.words_branch _), .method hk⟩

/-- A service with the code that was asked for. -/
theorem Service.remake (hd : Remakes g Q source width R) {leading : Leading} {s : Service}
    {rest : List Lexeme} (h : s.Valid rest)
    (hlead : leading.Valid moduleQualifiers (lexemes s.words ++ rest))
    {before : Text} {ctx : Context} (hs : Placed source before (leading.words ++ s.words) t)
    (hq : ∀ r ∈ (s.segments leading width before ctx).flatMap requests, Q r) :
    ∃ items, Service.Valid { s with items } rest
      ∧ leading.Valid moduleQualifiers (lexemes (Service.words { s with items }) ++ rest)
      ∧ Mends t (leading.words ++ s.words) (leading.words ++ Service.words { s with items })
      ∧ patchedAll g (s.segments leading width before ctx)
        = .ok (spell (leading.words ++ Service.words { s with items }))
      ∧ List.Forall₂ (Item.Rel (ServiceMember.Rel R)) s.items items := by
  rw [segments, List.flatMap_cons, List.flatMap_append, List.forall_mem_append,
    List.forall_mem_append] at hq
  rw [words, ← List.append_assoc] at hs
  obtain ⟨items, hv, hm, hp, hr⟩ := Grammar.remake serviceGrammar_local
    (ServiceMember.remake hd) _ _ h.items hs.right.left hq.2.1
  refine ⟨items, { h with items := hv }, hlead.congr (.of_take ?_), ?_, ?_, hr⟩
  · rw [take_words, take_words]
    obtain ⟨keyword, attach, on, listener, opening, items, closing, semicolon⟩ := s
    cases attach <;> rfl
  · have hall := (Mends.refl hs.left.legible).append (hm.append (.refl hs.right.right.legible))
    rw [List.append_assoc, List.append_assoc] at hall
    exact hall
  · refine (patchedAll_cons rfl (patchedAll_append hp (patchedAll_cons rfl rfl))).trans ?_
    simp [front, words, head, foot]

theorem ModuleMember.remake (hd : Remakes g Q source width R) {ctx : Context} {p : Option Lexeme}
    {m : ModuleMember} {rest : List Lexeme} {t : Text} (before next : Text)
    (h : moduleGrammar.Valid p m rest)
    (hs : Placed source before (moduleGrammar.branch m).words t)
    (hq : ∀ r ∈ (m.segments width ctx before next).flatMap requests, Q r) :
    ∃ m', moduleGrammar.Remade g p rest t (m.segments width ctx before next) m m'
      ∧ ModuleMember.Rel R m m' := by
  cases m with
  | declaration i => exact ⟨.declaration i, .refl h hs.legible rfl, .declaration i⟩
  | function d => exact ⟨.function d, .refl h hs.legible rfl, .function d⟩
  | other o => exact ⟨.other o, .refl h hs.legible rfl, .other o⟩
  | service leading s =>
    have hwords : ∀ s' : Service,
        wordsAll (leading.branches ++ s'.branches) = leading.words ++ s'.words := by simp
    rw [moduleGrammar_service, words_node, hwords] at hs
    obtain ⟨items, hv, hlead, hm, hp, hr⟩ := Service.remake hd h.2 h.1 hs hq
    refine ⟨.service leading { s with items }, ⟨⟨hlead, hv⟩, ?_, ?_⟩, .service leading hr⟩
    · simpa using hm
    · rw [moduleGrammar_service, words_node, hwords]
      exact hp

/-- A module with the code that was asked for. -/
theorem exists_remade (hd : Remakes g Q source width R) {items : List (Item ModuleMember)}
    {tail : Text} (hv : moduleGrammar.AllValid none items [])
    (hl : Legible (moduleGrammar.words items) tail)
    (hs : source = spell (moduleGrammar.words items) ++ tail) {ctx : Context}
    (hq : ∀ r ∈ (moduleSegments width ctx tail items).flatMap requests, Q r) :
    ∃ items', moduleGrammar.AllValid none items' [] ∧ Legible (moduleGrammar.words items') tail
      ∧ patchedAll g (moduleSegments width ctx tail items)
        = .ok (spell (moduleGrammar.words items') ++ tail)
      ∧ List.Forall₂ (Item.Rel (ModuleMember.Rel R)) items items' := by
  rw [moduleSegments, List.flatMap_append, List.forall_mem_append] at hq
  obtain ⟨items', hv', hm, hp, hr⟩ :=
    Grammar.remake moduleGrammar_local (ModuleMember.remake hd) [] tail hv
      ⟨hs, [], rfl, hl⟩ hq.1
  refine ⟨items', hv', hm.legible tail rfl, ?_, hr⟩
  exact (patchedAll_append hp (patchedAll_cons rfl rfl)).trans (by simp)

end Phrase

end BalMediation
