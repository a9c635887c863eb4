import BalMediation.Proofs.Rendering
import BalMediation.Proofs.Plans
import Mathlib.Data.List.Forall2

/-!
# Agreement

Two contexts agree if they answer the same questions. A generator that renders snippets asks a
context nothing else, so where contexts agree it gives the same answers (`steady_templated`), and
segments whose contexts agree come out the same (`patchedAll_of_agree`).
-/

namespace BalMediation

/-- Whether two contexts know the same imports, the same service and the same resource. -/
structure Context.Agree (ctx ctx' : Context) : Prop where
  imported : ctx.importedModules = ctx'.importedModules
  service : ctx.service? = ctx'.service?
  resource : ctx.resource? = ctx'.resource?

namespace Context

theorem nearest?_push (ctx : Context) (n : Node) (kinds : List Kind) :
    (ctx.push n).nearest? kinds = if kinds.contains n.kind then some n else ctx.nearest? kinds := by
  unfold nearest? chain push
  rw [List.find?_cons]
  split <;> simp_all

theorem Agree.push {ctx ctx' : Context} (h : Agree ctx ctx') (n : Node) :
    Agree (ctx.push n) (ctx'.push n) := by
  refine ⟨?_, ?_, ?_⟩
  · have himported := h.imported
    unfold importedModules module? at himported ⊢
    rw [nearest?_push, nearest?_push]
    split_ifs
    · rfl
    · exact himported
  · have hservice := h.service
    unfold service? at hservice ⊢
    rw [nearest?_push, nearest?_push, hservice]
  · have hresource := h.resource
    unfold resource? at hresource ⊢
    rw [nearest?_push, nearest?_push, hresource]

end Context

/-- Whether a generator gives the same answers where contexts agree. -/
structure Generator.Steady (g : Generator) : Prop where
  imports : ∀ {ctx ctx' : Context}, ctx.Agree ctx' → g.imports ctx = g.imports ctx'
  params : ∀ {ctx ctx' : Context} (signature : Node), ctx.Agree ctx' →
    g.params signature ctx = g.params signature ctx'
  returnType : ∀ {ctx ctx' : Context} (type : Node), ctx.Agree ctx' →
    g.returnType type ctx = g.returnType type ctx'
  record : ∀ {ctx ctx' : Context} (level : Int), ctx.Agree ctx' →
    g.record ctx level = g.record ctx' level
  block : ∀ {ctx ctx' : Context} (level : Int), ctx.Agree ctx' →
    g.block ctx level = g.block ctx' level

theorem Generator.steady_templated (snippets : Snippets) (hooks : Hooks) :
    (Generator.templated snippets hooks).Steady where
  imports h := by
    simp only [templated, Fragment.imports, h.imported]
  params _ _ := rfl
  returnType _ _ := rfl
  record _ h := by
    simp only [templated, Fragment.record, Context.resourceMethod, Context.resourcePath,
      Context.servicePath, h.resource, h.service]
  block _ h := by
    simp only [templated, Fragment.block, Fragment.requestName, Context.signature?, h.resource]

/-- Whether two segments differ only in contexts that agree. -/
inductive Segment.Agree : Segment → Segment → Prop
  | kept (t : Text) : Agree (.kept t) (.kept t)
  | params (signature : Node) {ctx ctx' : Context} : ctx.Agree ctx' →
      Agree (.params signature ctx) (.params signature ctx')
  | returnType (type : Node) (t : Text) {ctx ctx' : Context} : ctx.Agree ctx' →
      Agree (.returnType type ctx t) (.returnType type ctx' t)
  | body (shared : Bool) (level : Nat) {ctx ctx' : Context} : ctx.Agree ctx' →
      Agree (.body shared level ctx) (.body shared level ctx')

/-- Whether segments differ only in contexts that agree. -/
def Segment.AllAgree (segs segs' : List Segment) : Prop :=
  List.Forall₂ Agree segs segs'

namespace Segment

theorem Agree.patched_eq {g : Generator} (hg : g.Steady) {s s' : Segment} (h : Agree s s') :
    s.patched g = s'.patched g := by
  cases h with
  | kept t => rfl
  | params signature h => exact hg.params signature h
  | returnType type t h => exact hg.returnType type h
  | body shared level h => simp only [patched, hg.record level h, hg.block level h]

theorem patchedAll_of_agree {g : Generator} (hg : g.Steady) {segs segs' : List Segment}
    (h : AllAgree segs segs') : patchedAll g segs = patchedAll g segs' := by
  induction h with
  | nil => rfl
  | cons hs _ ih => rw [patchedAll, patchedAll, hs.patched_eq hg, ih]

theorem AllAgree.cons {s s' : Segment} {segs segs' : List Segment} (h : Agree s s')
    (hs : AllAgree segs segs') : AllAgree (s :: segs) (s' :: segs') :=
  List.Forall₂.cons h hs

theorem AllAgree.append {as as' bs bs' : List Segment} (ha : AllAgree as as')
    (hb : AllAgree bs bs') : AllAgree (as ++ bs) (as' ++ bs') :=
  List.rel_append ha hb

theorem AllAgree.kept (t : Text) : AllAgree [.kept t] [.kept t] :=
  .cons (.kept t) .nil

end Segment

namespace Phrase

open Segment

variable {ctx ctx' : Context} (h : ctx.Agree ctx')

include h

theorem Signature.agree_segments (s : Signature) (before next : Text) :
    AllAgree (s.segments before next ctx) (s.segments before next ctx') := by
  unfold segments
  refine .append (.cons (.kept _) (.cons (.params _ h) .nil)) ?_
  split
  · exact .kept _
  · exact .cons (.kept _) (.cons (.returnType _ _ h) .nil)

theorem Body.agree_segments (b : Body) (width : Nat) (before next : Text) :
    AllAgree (b.segments width before next ctx) (b.segments width before next ctx') := by
  cases b with
  | block g => exact .cons (.kept _) (.cons (.body _ _ (h.push _)) (.kept _))
  | clause sign content semicolon => exact .kept _
  | bare semicolon => exact .kept _

theorem Definition.agree_segments (d : Definition) (width : Nat) (before next : Text) :
    AllAgree (d.segments width before next ctx) (d.segments width before next ctx') := by
  refine .cons (.kept _) (.append ?_ ?_)
  · exact Signature.agree_segments (h.push _) _ _ _
  · exact Body.agree_segments h _ _ _ _

theorem ServiceMember.agree_segments (m : ServiceMember) (width : Nat) (before next : Text) :
    AllAgree (m.segments width ctx before next) (m.segments width ctx' before next) := by
  cases m with
  | function d =>
    rw [segments, segments]
    split_ifs
    · exact Definition.agree_segments (h.push _) d width before next
    · exact .kept _
  | other o => exact .kept _

omit h in
theorem Grammar.agree_segments {M : Type} {G : Grammar M}
    {seg seg' : M → Text → Text → List Segment}
    (hm : ∀ m before next, AllAgree (seg m before next) (seg' m before next))
    (items : List (Item M)) (before next : Text) :
    AllAgree (G.segments seg before next items) (G.segments seg' before next items) := by
  induction items generalizing before with
  | nil => exact .nil
  | cons item items ih =>
    cases item with
    | semicolon w => exact .append (.kept _) (ih _)
    | member m => exact .append (hm m before _) (ih _)

theorem ModuleMember.agree_segments (m : ModuleMember) (width : Nat) (before next : Text) :
    AllAgree (m.segments width ctx before next) (m.segments width ctx' before next) := by
  cases m with
  | service leading s =>
    refine .cons (.kept _) (.append ?_ (.kept _))
    exact Grammar.agree_segments (fun m => ServiceMember.agree_segments (h.push _) m width) _ _ _
  | declaration i => exact .kept _
  | function d => exact .kept _
  | other o => exact .kept _

end Phrase

end BalMediation
