import BalMediation.Proofs.Weaving
import BalMediation.Proofs.ReadingModules
import Mathlib.Data.List.Forall2

/-!
# Segments

A source as stretches of text that are kept and places between them where code goes. Its sites
stand at those places, and the answers of a generator fill them: what the edits of the sites weave
is the segments with the answers in place (`woven_segments`).
-/

namespace BalMediation

/-- The answer of a generator to a question. -/
def Generator.answer (g : Generator) : Request → Except Error Text
  | .imports ctx => g.imports ctx
  | .params signature ctx => g.params signature ctx
  | .returnType type ctx => g.returnType type ctx
  | .record ctx level => g.record ctx level
  | .block ctx level => g.block ctx level

/-- A stretch of the source that is kept, or a place where code goes. -/
inductive Segment where
  | kept (t : Text)
  | params (signature : Node) (ctx : Context)
  | returnType (type : Node) (ctx : Context) (t : Text)
  | body (shared : Bool) (level : Nat) (ctx : Context)

namespace Segment

/-- The text of the source at a segment. -/
def text : Segment → Text
  | kept t => t
  | params _ _ => []
  | returnType _ _ t => t
  | body _ _ _ => []

/-- The site of a segment at an offset. -/
def sites (o : Nat) : Segment → List Site
  | kept _ => []
  | params signature ctx => [.params o signature ctx]
  | returnType type ctx _ => [.returnType type ctx]
  | body shared level ctx => [.body o shared level ctx]

/-- Whether a return type stands where its node says. -/
def Fits (o : Nat) : Segment → Prop
  | returnType type _ t =>
    type.start = o ∧ type.stop = o + t.length ∧ type.value = some t
  | _ => True

/-- What is put in front of the statements of a body. -/
def lead (shared : Bool) (record block : Text) : Text :=
  if shared && !(record.isEmpty && block.isEmpty) then ['\n'] else []

/-- The text of a segment with the answers of a generator in place. -/
def patched (g : Generator) : Segment → Except Error Text
  | kept t => .ok t
  | params signature ctx => g.params signature ctx
  | returnType type ctx _ => g.returnType type ctx
  | body shared level ctx => do
    let record ← g.record ctx level
    let block ← g.block ctx level
    return lead shared record block ++ record ++ block

def textAll (segs : List Segment) : Text :=
  segs.flatMap text

def sitesAll (o : Nat) : List Segment → List Site
  | [] => []
  | s :: segs => s.sites o ++ sitesAll (o + s.text.length) segs

def FitAll (o : Nat) : List Segment → Prop
  | [] => True
  | s :: segs => s.Fits o ∧ FitAll (o + s.text.length) segs

def patchedAll (g : Generator) : List Segment → Except Error Text
  | [] => .ok []
  | s :: segs => do return (← s.patched g) ++ (← patchedAll g segs)

@[simp] theorem textAll_nil : textAll [] = [] := rfl

@[simp] theorem textAll_cons (s : Segment) (segs : List Segment) :
    textAll (s :: segs) = s.text ++ textAll segs := by
  simp [textAll]

@[simp] theorem textAll_append (as bs : List Segment) :
    textAll (as ++ bs) = textAll as ++ textAll bs := by
  simp [textAll]

@[simp] theorem sitesAll_append (o : Nat) (as bs : List Segment) :
    sitesAll o (as ++ bs) = sitesAll o as ++ sitesAll (o + (textAll as).length) bs := by
  induction as generalizing o with
  | nil => simp [sitesAll]
  | cons a as ih => simp [sitesAll, ih, Nat.add_assoc]

@[simp] theorem fitAll_append (o : Nat) (as bs : List Segment) :
    FitAll o (as ++ bs) ↔ FitAll o as ∧ FitAll (o + (textAll as).length) bs := by
  induction as generalizing o with
  | nil => simp [FitAll]
  | cons a as ih => simp [FitAll, ih, Nat.add_assoc, and_assoc]

theorem patchedAll_cons {g : Generator} {s : Segment} {segs : List Segment} {t u : Text}
    (hs : s.patched g = .ok t) (hsegs : patchedAll g segs = .ok u) :
    patchedAll g (s :: segs) = .ok (t ++ u) := by
  simp [patchedAll, hs, hsegs, bind, Except.bind, pure, Except.pure]

theorem patchedAll_append {g : Generator} {as bs : List Segment} {t u : Text}
    (ha : patchedAll g as = .ok t) (hb : patchedAll g bs = .ok u) :
    patchedAll g (as ++ bs) = .ok (t ++ u) := by
  induction as generalizing t with
  | nil =>
    cases ha
    exact hb
  | cons a as ih =>
    obtain ⟨x, hx, ha⟩ := bind_ok ha
    obtain ⟨y, hy, ha⟩ := bind_ok ha
    cases ha
    rw [List.cons_append, patchedAll_cons hx (ih hy), List.append_assoc]

theorem patchedAll_kept (g : Generator) (segs : List Segment) (t : Text) :
    patchedAll g (segs ++ [.kept t]) = (patchedAll g segs).map (· ++ t) := by
  induction segs with
  | nil => simp [patchedAll, patched, bind, Except.bind, pure, Except.pure, Except.map]
  | cons s segs ih =>
    rw [List.cons_append, patchedAll, ih, patchedAll]
    cases s.patched g with
    | error e => rfl
    | ok u =>
      cases patchedAll g segs with
      | error e => rfl
      | ok v => simp [bind, Except.bind, pure, Except.pure, Except.map]

theorem mapM_singleton {α β : Type} {f : α → Except Error β} {a : α} {bs : List β}
    (h : [a].mapM f = .ok bs) : ∃ b, f a = .ok b ∧ bs = [b] := by
  rw [List.mapM_cons, List.mapM_nil] at h
  obtain ⟨b, hb, h⟩ := bind_ok h
  cases h
  exact ⟨b, hb, rfl⟩

/-- The edits at the site of a segment weave its answers. -/
theorem woven_segment {g : Generator} {s : Segment} {o : Nat} (hf : s.Fits o)
    {ess : List (List Edit)} (h : (s.sites o).mapM (Site.edits g) = .ok ess) :
    ∃ new, s.patched g = .ok new ∧ Edit.Woven o s.text ess.flatten new := by
  cases s with
  | kept t =>
    cases h
    exact ⟨t, rfl, .keep o t⟩
  | params signature ctx =>
    obtain ⟨es, hes, rfl⟩ := mapM_singleton h
    obtain ⟨t, ht, hes⟩ := bind_ok hes
    cases hes
    exact ⟨t, ht, .inserted o t⟩
  | returnType type ctx t =>
    obtain ⟨hstart, hstop, -⟩ := hf
    obtain ⟨es, hes, rfl⟩ := mapM_singleton h
    obtain ⟨u, hu, hes⟩ := bind_ok hes
    cases hes
    refine ⟨u, hu, .replaced ?_ ?_ rfl⟩
    · simp [Edit.replace, hstart]
    · simp only [Edit.replace, Edit.stop, hstart, hstop, text]
      omega
  | body shared level ctx =>
    obtain ⟨es, hes, rfl⟩ := mapM_singleton h
    obtain ⟨record, hr, hes⟩ := bind_ok hes
    obtain ⟨block, hb, hes⟩ := bind_ok hes
    cases hes
    refine ⟨lead shared record block ++ record ++ block, ?_, ?_⟩
    · simp [patched, hr, hb, bind, Except.bind, pure, Except.pure]
    · exact (Edit.Woven.inserted o (lead shared record block ++ record)).append
        (Edit.Woven.inserted o block)

theorem woven_segments {g : Generator} {segs : List Segment} {o : Nat} (hf : FitAll o segs)
    {ess : List (List Edit)} (h : (sitesAll o segs).mapM (Site.edits g) = .ok ess) :
    ∃ new, patchedAll g segs = .ok new ∧ Edit.Woven o (textAll segs) ess.flatten new := by
  induction segs generalizing o ess with
  | nil =>
    cases h
    exact ⟨[], rfl, .keep o []⟩
  | cons s segs ih =>
    rw [sitesAll, List.mapM_append] at h
    obtain ⟨es, hes, h⟩ := bind_ok h
    obtain ⟨es', hes', h⟩ := bind_ok h
    cases h
    obtain ⟨new, hnew, hw⟩ := woven_segment hf.1 hes
    obtain ⟨new', hnew', hw'⟩ := ih hf.2 hes'
    refine ⟨new ++ new', ?_, ?_⟩
    · exact patchedAll_cons hnew hnew'
    · rw [List.flatten_append, textAll_cons]
      exact hw.append hw'

end Segment

/-! ## Questions and answers -/

theorem bind_error {ε α β : Type} {x : Except ε α} {f : α → Except ε β} {e : ε}
    (h : x >>= f = .error e) : x = .error e ∨ ∃ a, x = .ok a ∧ f a = .error e := by
  cases x with
  | error e' =>
    cases h
    exact .inl rfl
  | ok a => exact .inr ⟨a, rfl, h⟩

theorem mapM_error {ε α β : Type} {f : α → Except ε β} {as : List α} {e : ε}
    (h : as.mapM f = .error e) : ∃ a ∈ as, f a = .error e := by
  induction as with
  | nil => cases h
  | cons a as ih =>
    rw [List.mapM_cons] at h
    rcases bind_error h with ha | ⟨b, -, h⟩
    · exact ⟨a, List.mem_cons_self, ha⟩
    · rcases bind_error h with has | ⟨bs, -, h⟩
      · obtain ⟨a', ha', he⟩ := ih has
        exact ⟨a', List.mem_cons_of_mem _ ha', he⟩
      · cases h

theorem exists_mapM {ε α β : Type} {f : α → Except ε β} {as : List α}
    (h : ∀ a ∈ as, ∃ b, f a = .ok b) : ∃ bs, as.mapM f = .ok bs := by
  cases hm : as.mapM f with
  | ok bs => exact ⟨bs, rfl⟩
  | error e =>
    obtain ⟨a, ha, he⟩ := mapM_error hm
    obtain ⟨b, hb⟩ := h a ha
    rw [hb] at he
    cases he

theorem mapM_eq_map {ε α β : Type} {f : α → Except ε β} {g : α → β} {as : List α}
    (h : ∀ a ∈ as, f a = .ok (g a)) : as.mapM f = .ok (as.map g) := by
  induction as with
  | nil => rfl
  | cons a as ih =>
    rw [List.forall_mem_cons] at h
    rw [List.mapM_cons, h.1, ih h.2]
    rfl

/-- What comes of a list stands, entry by entry, beside what it comes of. -/
theorem forall₂_of_mapM {ε α β : Type} {f : α → Except ε β} {as : List α} {bs : List β}
    (h : as.mapM f = .ok bs) : List.Forall₂ (fun a b => f a = .ok b) as bs := by
  induction as generalizing bs with
  | nil =>
    cases h
    exact .nil
  | cons a as ih =>
    rw [List.mapM_cons] at h
    obtain ⟨b, hb, h⟩ := bind_ok h
    obtain ⟨bs, hbs, h⟩ := bind_ok h
    cases h
    exact .cons hb (ih hbs)

theorem exists_left_of_forall₂ {α β : Type} {R : α → β → Prop} {as : List α} {bs : List β}
    (h : List.Forall₂ R as bs) {b : β} (hb : b ∈ bs) : ∃ a ∈ as, R a b := by
  induction h with
  | nil => cases hb
  | @cons a c as bs hac _ ih =>
    rcases List.mem_cons.1 hb with rfl | hb
    · exact ⟨a, List.mem_cons_self, hac⟩
    · obtain ⟨a', ha', hab⟩ := ih hb
      exact ⟨a', List.mem_cons_of_mem _ ha', hab⟩

theorem exists_right_of_forall₂ {α β : Type} {R : α → β → Prop} {as : List α} {bs : List β}
    (h : List.Forall₂ R as bs) {a : α} (ha : a ∈ as) : ∃ b ∈ bs, R a b := by
  have hflip : List.Forall₂ (flip (flip R)) as bs := h
  exact exists_left_of_forall₂ hflip.flip ha

theorem exists_of_mapM {ε α β : Type} {f : α → Except ε β} {as : List α} {bs : List β}
    (h : as.mapM f = .ok bs) {b : β} (hb : b ∈ bs) : ∃ a ∈ as, f a = .ok b :=
  exists_left_of_forall₂ (forall₂_of_mapM h) hb

theorem exists_mem_of_mapM {ε α β : Type} {f : α → Except ε β} {as : List α} {bs : List β}
    (h : as.mapM f = .ok bs) {a : α} (ha : a ∈ as) : ∃ b ∈ bs, f a = .ok b :=
  exists_right_of_forall₂ (forall₂_of_mapM h) ha

/-- A segment fails as the edits at its site do. -/
theorem Segment.patched_error {g : Generator} {s : Segment} {o : Nat} {e : Error}
    (h : (s.sites o).mapM (Site.edits g) = .error e) : s.patched g = .error e := by
  obtain ⟨site, hmem, he⟩ := mapM_error h
  cases s with
  | kept t => cases hmem
  | params signature ctx =>
    rw [List.mem_singleton.1 hmem] at he
    rcases bind_error he with he | ⟨t, -, he⟩
    · exact he
    · cases he
  | returnType type ctx t =>
    rw [List.mem_singleton.1 hmem] at he
    rcases bind_error he with he | ⟨t, -, he⟩
    · exact he
    · cases he
  | body shared level ctx =>
    rw [List.mem_singleton.1 hmem] at he
    rw [patched]
    rcases bind_error he with he | ⟨record, hr, he⟩
    · rw [he]
      rfl
    · rw [hr]
      rcases bind_error he with he | ⟨block, -, he⟩
      · simp only [bind, Except.bind, he]
      · cases he

theorem Segment.patchedAll_error {g : Generator} {segs : List Segment} {o : Nat}
    (hf : FitAll o segs) {e : Error} (h : (sitesAll o segs).mapM (Site.edits g) = .error e) :
    patchedAll g segs = .error e := by
  induction segs generalizing o with
  | nil => cases h
  | cons s segs ih =>
    rw [sitesAll, List.mapM_append] at h
    rw [patchedAll]
    rcases bind_error h with h | ⟨es, hes, h⟩
    · rw [patched_error h]
      rfl
    · obtain ⟨new, hnew, -⟩ := woven_segment hf.1 hes
      rw [hnew]
      rcases bind_error h with h | ⟨es', -, h⟩
      · rw [ih hf.2 h]
        rfl
      · cases h

/-- A site fails only with the error of an answer. -/
theorem Site.edits_error {g : Generator} {s : Site} {e : Error} (h : s.edits g = .error e) :
    ∃ r ∈ s.requests, g.answer r = .error e := by
  cases s with
  | params offset signature ctx =>
    rcases bind_error h with ha | ⟨t, -, h⟩
    · exact ⟨_, List.mem_singleton.2 rfl, ha⟩
    · cases h
  | returnType type ctx =>
    rcases bind_error h with ha | ⟨t, -, h⟩
    · exact ⟨_, List.mem_singleton.2 rfl, ha⟩
    · cases h
  | body offset shared level ctx =>
    rcases bind_error h with hr | ⟨record, -, h⟩
    · exact ⟨_, List.mem_cons_self, hr⟩
    · rcases bind_error h with hb | ⟨block, -, h⟩
      · exact ⟨_, List.mem_cons_of_mem _ (List.mem_singleton.2 rfl), hb⟩
      · cases h

end BalMediation
