import BalMediation.Proofs.Words
import BalMediation.Shape.Cursor

/-!
# Nesting

Lexemes whose brackets match are nested. Skipping a group goes to the bracket behind the shortest
nested run (`skipGroup_of_nested`, `exists_of_skipGroup`), and a scan goes over lexemes and whole
groups to the first place where its rule says stop (`scan_of_passes`, `exists_of_scan`).
-/

namespace BalMediation

/-! ## Brackets -/

namespace Lexeme

theorem opens?_eq_some {l : Lexeme} {b : Bracket} :
    l.opens? = some b ↔ l.kind = .op ∧ l.text = b.opening := by
  obtain ⟨kind, text⟩ := l
  by_cases hk : kind = .op
  · subst hk
    by_cases h : ∃ b : Bracket, text = b.opening
    · obtain ⟨b', rfl⟩ := h
      cases b' <;> cases b <;> simp [opens?, Bracket.all, isOp, Bracket.opening, List.find?]
    · have hne : ∀ b : Bracket, (text == b.opening) = false := fun b =>
        beq_eq_false_iff_ne.2 fun hb => h ⟨b, hb⟩
      have hn : text ≠ b.opening := fun hb => h ⟨b, hb⟩
      simp [opens?, Bracket.all, isOp, hne, hn, List.find?]
  · simp [opens?, Bracket.all, isOp, hk, List.find?]

theorem closes?_eq_some {l : Lexeme} {b : Bracket} :
    l.closes? = some b ↔ l.kind = .op ∧ l.text = b.closing := by
  obtain ⟨kind, text⟩ := l
  by_cases hk : kind = .op
  · subst hk
    by_cases h : ∃ b : Bracket, text = b.closing
    · obtain ⟨b', rfl⟩ := h
      cases b' <;> cases b <;> simp [closes?, Bracket.all, isOp, Bracket.closing, List.find?]
    · have hne : ∀ b : Bracket, (text == b.closing) = false := fun b =>
        beq_eq_false_iff_ne.2 fun hb => h ⟨b, hb⟩
      have hn : text ≠ b.closing := fun hb => h ⟨b, hb⟩
      simp [closes?, Bracket.all, isOp, hne, hn, List.find?]
  · simp [closes?, Bracket.all, isOp, hk, List.find?]

theorem opens?_of_closes? {l : Lexeme} {b : Bracket} (h : l.closes? = some b) :
    l.opens? = none := by
  obtain ⟨-, ht⟩ := closes?_eq_some.1 h
  cases ho : l.opens? with
  | none => rfl
  | some b' =>
    obtain ⟨-, ht'⟩ := opens?_eq_some.1 ho
    rw [ht] at ht'
    cases b <;> cases b' <;> simp [Bracket.opening, Bracket.closing] at ht'

end Lexeme

theorem plain_of_kind {l : Lexeme} (h : l.kind ≠ .op) : l.opens? = none ∧ l.closes? = none := by
  refine ⟨?_, ?_⟩
  · refine Option.eq_none_iff_forall_ne_some.2 fun b hb => h ?_
    exact (Lexeme.opens?_eq_some.1 hb).1
  · refine Option.eq_none_iff_forall_ne_some.2 fun b hb => h ?_
    exact (Lexeme.closes?_eq_some.1 hb).1

/-- An operator that is no bracket is plain. -/
theorem plain_of_isOp {l : Lexeme} {s : Text} (h : l.isOp s = true)
    (hs : ∀ b : Bracket, s ≠ b.opening ∧ s ≠ b.closing) : l.opens? = none ∧ l.closes? = none := by
  simp only [Lexeme.isOp, Bool.and_eq_true, decide_eq_true_eq, beq_iff_eq] at h
  refine ⟨?_, ?_⟩
  · refine Option.eq_none_iff_forall_ne_some.2 fun b hb => (hs b).1 ?_
    rw [← h.2, (Lexeme.opens?_eq_some.1 hb).2]
  · refine Option.eq_none_iff_forall_ne_some.2 fun b hb => (hs b).2 ?_
    rw [← h.2, (Lexeme.closes?_eq_some.1 hb).2]

theorem plain_of_semicolon {l : Lexeme} (h : l.isOp [';'] = true) :
    l.opens? = none ∧ l.closes? = none :=
  plain_of_isOp h fun b => by cases b <;> decide

/-- Lexemes whose brackets match, each with the one that closes it. -/
inductive Nested : List Lexeme → Prop
  | nil : Nested []
  | plain {l : Lexeme} {ls : List Lexeme} : l.opens? = none → l.closes? = none → Nested ls →
      Nested (l :: ls)
  | group {b : Bracket} {l l' : Lexeme} {inner ls : List Lexeme} : l.opens? = some b →
      Nested inner → l'.closes? = some b → Nested ls → Nested (l :: (inner ++ l' :: ls))

theorem Nested.append {as bs : List Lexeme} (ha : Nested as) (hb : Nested bs) :
    Nested (as ++ bs) := by
  induction ha with
  | nil => exact hb
  | plain ho hc _ ih => exact .plain ho hc ih
  | group ho hi hc _ _ ih =>
    rw [List.cons_append, List.append_assoc]
    exact .group ho hi hc ih

theorem Nested.of_concat {as : List Lexeme} {l : Lexeme} (h : Nested (as ++ [l]))
    (hc : l.closes? = none) : Nested as := by
  generalize hs : as ++ [l] = ls at h
  induction h generalizing as with
  | nil => simp at hs
  | @plain l' ls ho hc' _ ih =>
    cases as with
    | nil => exact .nil
    | cons a as =>
      obtain ⟨rfl, htail⟩ := List.cons.inj hs
      exact .plain ho hc' (ih htail)
  | @group b l₁ l₂ inner ls ho hi hcl _ _ ih =>
    cases as with
    | nil => simp at hs
    | cons a as =>
      obtain ⟨rfl, htail⟩ := List.cons.inj hs
      rcases List.eq_nil_or_concat ls with rfl | ⟨ls, x, rfl⟩
      · obtain rfl : l = l₂ := by simpa using (List.append_inj' htail rfl).2
        rw [hc] at hcl
        cases hcl
      · have happ : as ++ [l] = (inner ++ l₂ :: ls) ++ [x] := by simpa using htail
        obtain ⟨rfl, hx⟩ := List.append_inj' happ rfl
        rw [List.concat_eq_append] at ih
        exact .group ho hi hcl (ih (by rw [hx]))

/-- Lexemes that close the given brackets, innermost first, and no more. -/
inductive Closes : List Bracket → List Lexeme → Prop
  | nil : Closes [] []
  | cons {b : Bracket} {bs : List Bracket} {l : Lexeme} {inner ls : List Lexeme} :
      Nested inner → l.closes? = some b → Closes bs ls → Closes (b :: bs) (inner ++ l :: ls)

/-! ## Words behind a cursor -/

/-- The lexemes of words. -/
def lexemes (ws : List Word) : List Lexeme :=
  ws.map Word.lexeme

@[simp] theorem lexemes_nil : lexemes [] = [] := rfl

@[simp] theorem lexemes_cons (w : Word) (ws : List Word) :
    lexemes (w :: ws) = w.lexeme :: lexemes ws := rfl

@[simp] theorem lexemes_append (as bs : List Word) :
    lexemes (as ++ bs) = lexemes as ++ lexemes bs :=
  List.map_append

@[simp] theorem length_lexemes (ws : List Word) : (lexemes ws).length = ws.length :=
  List.length_map _

@[simp] theorem lexemes_pad (g : Text) (ws : List Word) :
    lexemes (Lexer.pad g ws) = lexemes ws := by
  cases ws <;> rfl

namespace Cursor

/-- The last lexeme before the cursor when `ls` has been read behind `p`. -/
def latest (p : Option Lexeme) : List Lexeme → Option Lexeme
  | [] => p
  | l :: ls => latest (some l) ls

@[simp] theorem latest_nil (p : Option Lexeme) : latest p [] = p := rfl

@[simp] theorem latest_cons (p : Option Lexeme) (l : Lexeme) (ls : List Lexeme) :
    latest p (l :: ls) = latest (some l) ls := rfl

@[simp] theorem latest_append (p : Option Lexeme) (as bs : List Lexeme) :
    latest p (as ++ bs) = latest (latest p as) bs := by
  induction as generalizing p with
  | nil => rfl
  | cons a as ih => exact ih (some a)

theorem closeGroups_nested {ns : List Lexeme} (h : Nested ns) {opened : List (Nat × Bracket)}
    (ho : opened ≠ []) (i : Nat) (p : Option Lexeme) (ls : List Lexeme) :
    closeGroups opened i p (ns ++ ls)
      = closeGroups opened (i + ns.length) (latest p ns) ls := by
  induction h generalizing opened i p ls with
  | nil => rfl
  | @plain l ns hop hcl _ ih =>
    obtain ⟨⟨j, b⟩, outer, rfl⟩ := List.exists_cons_of_ne_nil ho
    rw [List.cons_append, closeGroups]
    simp only [hop, hcl, latest_cons, List.length_cons]
    rw [ih (by simp), Nat.add_right_comm, Nat.add_assoc]
  | @group b l l' inner ns hop _ hcl _ ihi ih =>
    obtain ⟨⟨j, b'⟩, outer, rfl⟩ := List.exists_cons_of_ne_nil ho
    rw [List.cons_append, List.append_assoc, closeGroups]
    simp only [hop, List.cons_append]
    rw [ihi (by simp), closeGroups]
    simp only [Lexeme.opens?_of_closes? hcl, hcl, if_pos]
    rw [ih (by simp)]
    simp only [latest_cons, latest_append, List.length_cons, List.length_append]
    congr 1
    omega

theorem closeGroups_of_closes {bs : List Bracket} {ns : List Lexeme} (h : Closes bs ns)
    {opened : List (Nat × Bracket)} (ho : opened.map Prod.snd = bs) (i : Nat) (p : Option Lexeme)
    (ls : List Lexeme) :
    closeGroups opened i p (ns ++ ls) = .ok ⟨i + ns.length, latest p ns, ls⟩ := by
  induction h generalizing opened i p with
  | nil =>
    rw [List.map_eq_nil_iff] at ho
    subst ho
    cases ls <;> simp [closeGroups]
  | @cons b bs l inner ns hi hcl _ ih =>
    obtain ⟨⟨j, b'⟩, outer, rfl, rfl, rfl⟩ := List.map_eq_cons_iff.1 ho
    rw [List.append_assoc, closeGroups_nested hi (by simp), List.cons_append, closeGroups]
    simp only [Lexeme.opens?_of_closes? hcl, hcl, if_pos]
    rw [ih rfl]
    simp only [latest_cons, latest_append, List.length_cons, List.length_append]
    congr 2
    omega

theorem closes_of_closeGroups {opened : List (Nat × Bracket)} {i : Nat} {p : Option Lexeme}
    {ls : List Lexeme} {c : Cursor} (h : closeGroups opened i p ls = .ok c) :
    ∃ ns rest, ls = ns ++ rest ∧ Closes (opened.map Prod.snd) ns
      ∧ c = ⟨i + ns.length, latest p ns, rest⟩ := by
  induction ls generalizing opened i p with
  | nil =>
    cases opened with
    | nil =>
      cases h
      exact ⟨[], [], rfl, .nil, rfl⟩
    | cons o outer => simp [closeGroups] at h
  | cons l ls ih =>
    cases opened with
    | nil =>
      cases h
      exact ⟨[], l :: ls, rfl, .nil, rfl⟩
    | cons o outer =>
      obtain ⟨j, b⟩ := o
      rw [closeGroups] at h
      split at h
      · rename_i inner hop
        obtain ⟨ns, rest, rfl, hc, rfl⟩ := ih h
        simp only [List.map_cons] at hc
        rcases hc with _ | ⟨hi, hcl, hc⟩
        rcases hc with _ | ⟨hi', hcl', hc⟩
        refine ⟨l :: _, rest, rfl, ?_, ?_⟩
        · have := Closes.cons (Nested.group hop hi hcl hi') hcl' hc
          simpa using this
        · simp only [latest_cons, List.length_cons]
          congr 1
          omega
      · rename_i hop
        split at h
        · rename_i closed hcl
          split at h
          · rename_i heq
            subst heq
            obtain ⟨ns, rest, rfl, hc, rfl⟩ := ih h
            refine ⟨l :: ns, rest, rfl, Closes.cons .nil hcl hc, ?_⟩
            simp only [latest_cons, List.length_cons]
            congr 1
            omega
          · simp at h
        · rename_i hcl
          obtain ⟨ns, rest, rfl, hc, rfl⟩ := ih h
          simp only [List.map_cons] at hc
          rcases hc with _ | ⟨hi, hcl', hc⟩
          refine ⟨l :: _, rest, rfl, Closes.cons (Nested.plain hop hcl hi) hcl' hc, ?_⟩
          simp only [latest_cons, List.length_cons]
          congr 1
          omega

/-- Skipping a group goes past a nested run and the bracket that closes the group. -/
theorem skipGroup_of_nested {b : Bracket} {l close : Lexeme} {inner : List Lexeme}
    (hi : Nested inner) (hcl : close.closes? = some b) (i : Nat) (p : Option Lexeme)
    (ls : List Lexeme) :
    skipGroup b ⟨i, p, l :: (inner ++ close :: ls)⟩
      = .ok ⟨i + (inner.length + 2), some close, ls⟩ := by
  have ho : List.map Prod.snd [(i, b)] = [b] := rfl
  have := closeGroups_of_closes (Closes.cons hi hcl .nil) ho (i + 1) (some l) ls
  simp only [List.append_assoc, List.cons_append, List.nil_append, latest_append, latest_cons,
    latest_nil, List.length_append, List.length_cons, List.length_nil] at this
  simp only [skipGroup, advance_index_cons, this]
  congr 2
  omega

theorem exists_of_skipGroup {b : Bracket} {i : Nat} {p : Option Lexeme} {w : Word}
    {ws : List Word} {c : Cursor} (h : skipGroup b ⟨i, p, lexemes (w :: ws)⟩ = .ok c) :
    ∃ inner close rest, ws = inner ++ close :: rest ∧ Nested (lexemes inner)
      ∧ close.lexeme.closes? = some b
      ∧ c = ⟨i + (inner.length + 2), some close.lexeme, lexemes rest⟩ := by
  simp only [skipGroup, lexemes_cons, advance_index_cons] at h
  obtain ⟨ns, ls, hls, hc, rfl⟩ := closes_of_closeGroups h
  simp only [List.map_cons, List.map_nil] at hc
  rcases hc with _ | ⟨hi, hcl, hc⟩
  rcases hc with _ | _
  rw [List.append_assoc] at hls
  obtain ⟨inner, r, rfl, rfl, hr⟩ := List.map_eq_append_iff.1 hls
  obtain ⟨close, rest, rfl, rfl, rfl⟩ := List.map_eq_cons_iff.1 hr
  refine ⟨inner, close, rest, rfl, hi, hcl, ?_⟩
  simp only [latest_cons, latest_append, latest_nil, List.length_append, List.length_cons,
    List.length_nil, List.length_map]
  congr 1
  omega

/-! ## Scanning -/

/-- Lexemes behind `p` that a scan with this rule goes past. -/
inductive Passes (rule : Option Lexeme → Lexeme → Step) : Option Lexeme → List Lexeme → Prop
  | nil {p : Option Lexeme} : Passes rule p []
  | pass {p : Option Lexeme} {l : Lexeme} {ls : List Lexeme} : rule p l = .pass →
      Passes rule (some l) ls → Passes rule p (l :: ls)
  | group {p : Option Lexeme} {b : Bracket} {l close : Lexeme} {inner ls : List Lexeme} :
      rule p l = .group b → Nested inner → close.closes? = some b → Passes rule (some close) ls →
      Passes rule p (l :: (inner ++ close :: ls))

/-- Whether a scan with this rule ends in front of these lexemes. -/
def Stops (rule : Option Lexeme → Lexeme → Step) (p : Option Lexeme) : List Lexeme → Prop
  | [] => True
  | l :: _ => rule p l = .stop

variable {rule : Option Lexeme → Lexeme → Step}

theorem Passes.congr {p q : Option Lexeme} {ls : List Lexeme} (h : Passes rule p ls)
    (hpq : ∀ l, rule p l = rule q l) : Passes rule q ls := by
  cases h with
  | nil => exact .nil
  | pass hr h => exact .pass (hpq _ ▸ hr) h
  | group hr hi hc h => exact .group (hpq _ ▸ hr) hi hc h

theorem scan_of_passes {p : Option Lexeme} {as : List Lexeme} (h : Passes rule p as)
    {bs : List Lexeme} (hs : Stops rule (latest p as) bs) (i : Nat) :
    scan rule ⟨i, p, as ++ bs⟩ = .ok ⟨i + as.length, latest p as, bs⟩ := by
  induction h generalizing i with
  | @nil p =>
    rw [scan]
    cases bs with
    | nil => rfl
    | cons l bs =>
      have hl : rule p l = .stop := hs
      simp [hl]
  | @pass p l ls hr _ ih =>
    rw [List.cons_append, scan]
    simp only [hr, advance_index_cons]
    rw [ih hs, latest_cons, List.length_cons]
    congr 2
    omega
  | @group p b l close inner ls hr hi hc _ ih =>
    rw [latest_cons, latest_append, latest_cons] at hs
    rw [List.cons_append, List.append_assoc, List.cons_append, scan]
    simp only [hr]
    split
    · rename_i hg
      rw [skipGroup_of_nested hi hc] at hg
      cases hg
    · rename_i hg
      rw [skipGroup_of_nested hi hc] at hg
      cases hg
      rw [ih hs, latest_cons, latest_append, latest_cons]
      simp only [List.length_cons, List.length_append]
      congr 2
      omega

theorem exists_of_scan {i : Nat} {p : Option Lexeme} {ws : List Word} {c : Cursor}
    (h : scan rule ⟨i, p, lexemes ws⟩ = .ok c) :
    ∃ as bs, ws = as ++ bs ∧ Passes rule p (lexemes as)
      ∧ Stops rule (latest p (lexemes as)) (lexemes bs)
      ∧ c = ⟨i + as.length, latest p (lexemes as), lexemes bs⟩ := by
  generalize hd : (⟨i, p, lexemes ws⟩ : Cursor) = d at h
  fun_induction scan rule d generalizing i p ws with
  | case1 d hr =>
    subst hd
    cases h
    exact ⟨[], ws, rfl, .nil, by simp [Stops, show lexemes ws = [] from hr], rfl⟩
  | case2 d l ls hr hl =>
    subst hd
    cases h
    exact ⟨[], ws, rfl, .nil, by simpa [Stops, show lexemes ws = _ from hr] using hl, rfl⟩
  | case3 d l ls hr hl ih =>
    subst hd
    obtain ⟨w, ws, rfl, rfl, rfl⟩ := List.map_eq_cons_iff.1 hr
    obtain ⟨as, bs, rfl, hp, hs, rfl⟩ := ih rfl h
    refine ⟨w :: as, bs, rfl, .pass hl hp, hs, ?_⟩
    simp only [lexemes_cons, latest_cons, List.length_cons]
    congr 1
    omega
  | case4 => simp [fail] at h
  | case5 => simp at h
  | case6 d l ls hr b hl d' hg ih =>
    subst hd
    obtain ⟨w, ws, rfl, rfl, rfl⟩ := List.map_eq_cons_iff.1 hr
    obtain ⟨inner, close, rest, rfl, hi, hc, rfl⟩ := exists_of_skipGroup hg
    obtain ⟨as, bs, rfl, hp, hs, rfl⟩ := ih rfl h
    refine ⟨w :: (inner ++ close :: as), bs, by simp, ?_, ?_, ?_⟩
    · simpa using Passes.group hl hi hc hp
    · simpa using hs
    · simp only [lexemes_cons, lexemes_append, latest_cons, latest_append, List.length_cons,
        List.length_append]
      congr 1
      omega

/-! ## The lexeme behind a cursor -/

section Head

variable {i : Nat} {p : Option Lexeme} {l : Lexeme} {ls : List Lexeme} {s : Text}

@[simp] theorem atOp_nil : atOp ⟨i, p, []⟩ s = false := rfl

@[simp] theorem atOp_cons : atOp ⟨i, p, l :: ls⟩ s = l.isOp s := rfl

@[simp] theorem atWord_nil : atWord ⟨i, p, []⟩ s = false := rfl

@[simp] theorem atWord_cons : atWord ⟨i, p, l :: ls⟩ s = l.isWord s := rfl

@[simp] theorem atIdent_nil : atIdent ⟨i, p, []⟩ = false := rfl

@[simp] theorem atIdent_cons : atIdent ⟨i, p, l :: ls⟩ = decide (l.kind = .ident) := rfl

@[simp] theorem atEnd_nil : atEnd ⟨i, p, []⟩ = true := rfl

@[simp] theorem atEnd_cons : atEnd ⟨i, p, l :: ls⟩ = false := rfl

end Head

end Cursor

end BalMediation
