import BalMediation.Proofs.Phrases

/-!
# Reading phrases

Each reader takes the words of a valid phrase and leaves its shape, and takes nothing else: for
every reader there is one lemma that a valid phrase is read, and one that what is read is a valid
phrase.
-/

namespace BalMediation

theorem bind_ok {ε α β : Type} {x : Except ε α} {f : α → Except ε β} {b : β}
    (h : x.bind f = .ok b) : ∃ a, x = .ok a ∧ f a = .ok b := by
  cases x with
  | error e => simp [Except.bind] at h
  | ok a => exact ⟨a, rfl, h⟩

theorem map_ok {ε α β : Type} {x : Except ε α} {f : α → β} {b : β}
    (h : x.map f = .ok b) : ∃ a, x = .ok a := by
  cases x with
  | error e => simp [Except.map] at h
  | ok a => exact ⟨a, rfl⟩

theorem mapError_ok {ε δ α : Type} {x : Except ε α} {f : ε → δ} {a : α}
    (h : x.mapError f = .ok a) : x = .ok a := by
  cases x with
  | error e => cases h
  | ok b =>
    cases h
    rfl

theorem ok_of_toOption {ε α : Type} {x : Except ε α} {a : α} (h : x.toOption = some a) :
    x = .ok a := by
  cases x with
  | error e => cases h
  | ok b =>
    cases h
    rfl

theorem exists_of_any {ε α : Type} {x : Except ε α} {p : α → Bool}
    (h : x.toOption.any p = true) : ∃ a, x = .ok a ∧ p a = true := by
  rw [Option.any_eq_true] at h
  obtain ⟨a, ha, hp⟩ := h
  exact ⟨a, ok_of_toOption ha, hp⟩

namespace Lexeme

theorem isOp_eq {l : Lexeme} {s : Text} (h : l.isOp s = true) (t : Text) :
    l.isOp t = decide (s = t) := by
  simp only [isOp, Bool.and_eq_true, decide_eq_true_eq, beq_iff_eq] at h
  simp [isOp, h.1, h.2, Bool.beq_eq_decide_eq]

theorem isWord_of_isOp {l : Lexeme} {s : Text} (h : l.isOp s = true) (t : Text) :
    l.isWord t = false := by
  simp only [isOp, Bool.and_eq_true, decide_eq_true_eq, beq_iff_eq] at h
  simp [isWord, h.1]

theorem kind_of_isOp {l : Lexeme} {s : Text} (h : l.isOp s = true) : l.kind = .op := by
  simp only [isOp, Bool.and_eq_true, decide_eq_true_eq] at h
  exact h.1

theorem isWord_eq {l : Lexeme} {s : Text} (h : l.isWord s = true) (t : Text) :
    l.isWord t = decide (s = t) := by
  simp only [isWord, Bool.and_eq_true, decide_eq_true_eq, beq_iff_eq] at h
  simp [isWord, h.1, h.2, Bool.beq_eq_decide_eq]

theorem kind_of_isWord {l : Lexeme} {s : Text} (h : l.isWord s = true) : l.kind = .ident := by
  simp only [isWord, Bool.and_eq_true, decide_eq_true_eq] at h
  exact h.1

theorem isOp_of_ident {l : Lexeme} (h : l.kind = .ident) (s : Text) : l.isOp s = false := by
  simp [isOp, h]

theorem opens?_of_isOp {l : Lexeme} {b : Bracket} (h : l.isOp b.opening = true) :
    l.opens? = some b := by
  simp only [isOp, Bool.and_eq_true, decide_eq_true_eq, beq_iff_eq] at h
  exact opens?_eq_some.2 h

theorem closes?_of_isOp {l : Lexeme} {b : Bracket} (h : l.isOp b.closing = true) :
    l.closes? = some b := by
  simp only [isOp, Bool.and_eq_true, decide_eq_true_eq, beq_iff_eq] at h
  exact closes?_eq_some.2 h

theorem isOp_of_closes? {l : Lexeme} {b : Bracket} (h : l.closes? = some b) :
    l.isOp b.closing = true := by
  simpa [isOp] using closes?_eq_some.1 h

theorem closes?_of_opens? {l : Lexeme} {b : Bracket} (h : l.opens? = some b) :
    l.closes? = none := by
  cases hc : l.closes? with
  | none => rfl
  | some b' =>
    rw [opens?_of_closes? hc] at h
    cases h

end Lexeme

namespace Cursor

open Phrase

/-- The cursor behind words that begin at token number `i` behind the lexeme `p`. -/
def past (i : Nat) (p : Option Lexeme) (ws : List Word) (rest : List Lexeme) : Cursor :=
  ⟨i + ws.length, latest p (lexemes ws), rest⟩

theorem past_append (i : Nat) (p : Option Lexeme) (as bs : List Word) (rest : List Lexeme) :
    past (i + as.length) (latest p (lexemes as)) bs rest = past i p (as ++ bs) rest := by
  simp [past, Nat.add_assoc]

@[simp] theorem atOp_past (i : Nat) (p : Option Lexeme) (ws : List Word) (rest : List Lexeme)
    (s : Text) : atOp (past i p ws rest) s = startsOp s rest := rfl

@[simp] theorem atWord_past (i : Nat) (p : Option Lexeme) (ws : List Word) (rest : List Lexeme)
    (s : Text) : atWord (past i p ws rest) s = startsWord s rest := rfl

@[simp] theorem atEnd_past_cons (i : Nat) (p : Option Lexeme) (ws : List Word) (l : Lexeme)
    (ls : List Lexeme) : atEnd (past i p ws (l :: ls)) = false := rfl

@[simp] theorem advance_past_cons (i : Nat) (p : Option Lexeme) (ws : List Word) (l : Lexeme)
    (ls : List Lexeme) : advance (past i p ws (l :: ls)) = ⟨i + ws.length + 1, some l, ls⟩ := rfl

/-- The lexemes between the cursors in front of words and behind them. -/
@[simp] theorem lexemesTo_past (i : Nat) (p q : Option Lexeme) (ws : List Word)
    (ls rest : List Lexeme) :
    lexemesTo ⟨i, p, lexemes ws ++ ls⟩ (past i q ws rest) = lexemes ws := by
  simp only [lexemesTo, past]
  rw [Nat.add_sub_cancel_left, List.take_left' (length_lexemes ws)]

/-- A scan goes past the words that its rule passes. -/
theorem scan_words {rule : Option Lexeme → Lexeme → Step} {p : Option Lexeme} {ws : List Word}
    {t : List Lexeme} (h : Passes rule p (lexemes ws))
    (hs : Stops rule (latest p (lexemes ws)) t) (i : Nat) :
    scan rule ⟨i, p, lexemes ws ++ t⟩ = .ok (past i p ws t) := by
  rw [scan_of_passes h hs, length_lexemes, past]

/-! ## What a successful reader has checked -/

theorem ok_of_check {α : Type} {P : Prop} [Decidable P] {c : Cursor} {cause : Cause}
    {x : Except Fault α} {a : α} (h : (if P then c.fail cause else x) = .ok a) :
    ¬ P ∧ x = .ok a := by
  split_ifs at h with hp
  · cases h
  · exact ⟨hp, h⟩

theorem ok_of_guard {α : Type} {b : Bool} {c : Cursor} {cause : Cause} {x : Except Fault α}
    {a : α} (h : (if !b then c.fail cause else x) = .ok a) : b = true ∧ x = .ok a := by
  obtain ⟨hb, hx⟩ := ok_of_check h
  exact ⟨by simpa using hb, hx⟩

theorem exists_cons_of_startsOp {s : Text} {ws : List Word}
    (h : startsOp s (lexemes ws) = true) :
    ∃ (w : Word) (rest : List Word), ws = w :: rest ∧ w.lexeme.isOp s = true := by
  cases ws with
  | nil => cases h
  | cons w ws => exact ⟨w, ws, rfl, h⟩

theorem exists_cons_of_startsWord {s : Text} {ws : List Word}
    (h : startsWord s (lexemes ws) = true) :
    ∃ (w : Word) (rest : List Word), ws = w :: rest ∧ w.lexeme.isWord s = true := by
  cases ws with
  | nil => cases h
  | cons w ws => exact ⟨w, ws, rfl, h⟩

theorem exists_cons_of_atIdent {i : Nat} {p : Option Lexeme} {ws : List Word}
    (h : atIdent ⟨i, p, lexemes ws⟩ = true) :
    ∃ (w : Word) (rest : List Word), ws = w :: rest ∧ w.lexeme.kind = .ident := by
  cases ws with
  | nil => cases h
  | cons w ws => exact ⟨w, ws, rfl, of_decide_eq_true h⟩

theorem exists_cons_of_not_atEnd {i : Nat} {p : Option Lexeme} {ws : List Word}
    (h : ¬ atEnd ⟨i, p, lexemes ws⟩ = true) :
    ∃ (w : Word) (rest : List Word), ws = w :: rest := by
  cases ws with
  | nil => exact absurd rfl h
  | cons w ws => exact ⟨w, ws, rfl⟩

/-! ## Rules that stop at some lexemes and are plain at the others -/

theorem Step.plain_ne_stop (l : Lexeme) : Step.plain l ≠ .stop := by
  unfold Step.plain
  split
  · simp
  · split <;> simp

theorem Step.ite_plain_eq_stop {b : Bool} {l : Lexeme} :
    (if b then Step.stop else Step.plain l) = .stop ↔ b = true := by
  cases b with
  | true => simp
  | false => simp [Step.plain_ne_stop]

theorem Step.stop_or_plain (b : Bool) (l : Lexeme) :
    (if b then Step.stop else Step.plain l) = .stop
      ∨ (if b then Step.stop else Step.plain l) = .plain l := by
  cases b <;> simp

theorem memberRule_eq_stop {p : Option Lexeme} {l : Lexeme} :
    memberRule p l = .stop ↔ (l.isOp [';'] || opensBlock p l) = true :=
  Step.ite_plain_eq_stop

theorem paramsRule_eq_stop {p : Option Lexeme} {l : Lexeme} :
    paramsRule p l = .stop ↔ l.isOp [')'] = true :=
  Step.ite_plain_eq_stop

theorem clauseRule_eq_stop {p : Option Lexeme} {l : Lexeme} :
    clauseRule p l = .stop ↔ l.isOp [';'] = true :=
  Step.ite_plain_eq_stop

/-! ## Groups -/

theorem skipGroup_of_valid {b : Bracket} {g : Group} (h : g.Valid b) (i : Nat) (p : Option Lexeme)
    (rest : List Lexeme) :
    skipGroup b ⟨i, p, lexemes g.words ++ rest⟩ = .ok (past i p g.words rest) := by
  have := skipGroup_of_nested (l := g.opening.lexeme) h.inside h.closing i p rest
  simpa [Group.words, past] using this

theorem exists_group_of_skipGroup {b : Bracket} {i : Nat} {p : Option Lexeme} {ws : List Word}
    {c : Cursor} (hop : startsOp b.opening (lexemes ws) = true)
    (h : skipGroup b ⟨i, p, lexemes ws⟩ = .ok c) :
    ∃ (g : Group) (rest : List Word), ws = g.words ++ rest ∧ g.Valid b
      ∧ c = past i p g.words (lexemes rest) := by
  obtain ⟨w, ws, rfl, hw⟩ := exists_cons_of_startsOp hop
  obtain ⟨inner, close, rest, rfl, hi, hc, rfl⟩ := exists_of_skipGroup h
  refine ⟨⟨w, inner, close⟩, rest, by simp [Group.words], ⟨hw, hi, hc⟩, ?_⟩
  simp [past, Group.words]

/-! ## Annotations and qualifiers -/

theorem skipQualified_eq {i : Nat} {p : Option Lexeme} {ls : List Lexeme}
    (h : startsQualified ls = false) : skipQualified ⟨i, p, ls⟩ = ⟨i, p, ls⟩ := by
  unfold skipQualified
  rw [if_neg]
  rcases ls with _ | ⟨a, _ | ⟨b, ls⟩⟩
  · simp
  · simp
  · simpa [startsQualified, startsOp] using h

theorem skipQualified_of_valid {a : Attachment} {rest : List Lexeme} (h : a.Valid rest) (i : Nat)
    (p : Option Lexeme) :
    skipQualified ⟨i, p, lexemes a.qualified ++ (lexemes a.record ++ rest)⟩
      = past i p a.qualified (lexemes a.record ++ rest) := by
  rcases h.qualified with ⟨hq, hs⟩ | ⟨colon, name, hq, hc, hn⟩
  · rw [hq]
    exact skipQualified_eq hs
  · simp [hq, skipQualified, past, hc, hn]

theorem annotationAttachment_of_valid {a : Attachment} {rest : List Lexeme} (h : a.Valid rest)
    (i : Nat) (p : Option Lexeme) :
    annotationAttachment ⟨i, p, lexemes a.words ++ rest⟩
      = .ok (.span .annotationAttachment i (i + a.words.length), past i p a.words rest) := by
  have hafter := skipQualified_of_valid h (i + 1 + 1) (some a.name.lexeme)
  simp only [annotationAttachment, Attachment.words, lexemes_cons, lexemes_append, List.cons_append,
    List.append_assoc, advance_index_cons, atIdent_cons, h.name, decide_true, Bool.not_true,
    Bool.false_eq_true, if_false, hafter]
  rcases h.record with ⟨hr, hs⟩ | ⟨g, hr, hg⟩
  · have hb : atOp (past (i + 1 + 1) (some a.name.lexeme) a.qualified rest) ['\x7b'] = false := hs
    rw [hr, lexemes_nil, List.nil_append, if_neg (by simp [hb])]
    simp only [past, List.append_nil, List.length_cons, lexemes_cons, latest_cons]
    congr 3 <;> omega
  · have hb : atOp (past (i + 1 + 1) (some a.name.lexeme) a.qualified (lexemes g.words ++ rest))
        ['\x7b'] = true := hg.opening
    rw [hr, if_pos hb, past, skipGroup_of_valid hg]
    simp only [bind, Except.bind, pure, Except.pure, past, List.length_cons, List.length_append,
      lexemes_cons, lexemes_append, latest_cons, latest_append]
    congr 3 <;> omega

theorem exists_qualified (i : Nat) (p : Option Lexeme) (ws : List Word) :
    ∃ (qualified rest : List Word), ws = qualified ++ rest
      ∧ skipQualified ⟨i, p, lexemes ws⟩ = past i p qualified (lexemes rest)
      ∧ ((qualified = [] ∧ startsQualified (lexemes rest) = false)
        ∨ ∃ colon second, qualified = [colon, second] ∧ colon.lexeme.isOp [':'] = true
          ∧ second.lexeme.kind = .ident) := by
  by_cases hs : startsQualified (lexemes ws) = true
  · rcases ws with _ | ⟨colon, _ | ⟨second, rest⟩⟩
    · simp [startsQualified, startsOp] at hs
    · simp [startsQualified, startsOp] at hs
    · have hcs : colon.lexeme.isOp [':'] = true ∧ second.lexeme.kind = .ident := by
        simpa [startsQualified, startsOp] using hs
      refine ⟨[colon, second], rest, rfl, ?_, .inr ⟨colon, second, rfl, hcs.1, hcs.2⟩⟩
      simp [skipQualified, past, hcs.1, hcs.2]
  · rw [Bool.not_eq_true] at hs
    exact ⟨[], ws, rfl, skipQualified_eq hs, .inl ⟨rfl, hs⟩⟩

theorem exists_of_annotationAttachment {i : Nat} {p : Option Lexeme} {ws : List Word} {s : Shape}
    {c : Cursor} (hat : startsOp ['@'] (lexemes ws) = true)
    (h : annotationAttachment ⟨i, p, lexemes ws⟩ = .ok (s, c)) :
    ∃ (a : Attachment) (rest : List Word), ws = a.words ++ rest ∧ a.Valid (lexemes rest) := by
  obtain ⟨sign, ws, rfl, hsign⟩ := exists_cons_of_startsOp hat
  obtain ⟨hident, h⟩ := ok_of_guard h
  obtain ⟨name, ws, rfl, hname⟩ := exists_cons_of_atIdent hident
  obtain ⟨qualified, after, rfl, hafter, hq⟩ :=
    exists_qualified (i + 1 + 1) (some name.lexeme) ws
  simp only [lexemes_cons, advance_index_cons, hafter, atOp_past] at h
  by_cases hb : startsOp ['{'] (lexemes after) = true
  · rw [if_pos hb] at h
    obtain ⟨last, hg, -⟩ := bind_ok h
    obtain ⟨g, rest, rfl, hg, -⟩ := exists_group_of_skipGroup (b := .brace) hb hg
    refine ⟨⟨sign, name, qualified, g.words⟩, rest, by simp [Attachment.words], hsign, hname, ?_,
      .inr ⟨g, rfl, hg⟩⟩
    simpa using hq
  · refine ⟨⟨sign, name, qualified, []⟩, after, by simp [Attachment.words], hsign, hname, ?_,
      .inl ⟨rfl, by simpa using hb⟩⟩
    simpa using hq

theorem annotations_of_valid {as : List Attachment} {rest : List Lexeme}
    (h : Attachment.AllValid as rest) (i : Nat) (p : Option Lexeme) :
    annotations ⟨i, p, lexemes (as.flatMap Attachment.words) ++ rest⟩
      = .ok (Branch.shapesAll i (as.map Attachment.branch),
          past i p (as.flatMap Attachment.words) rest) := by
  induction as generalizing i p with
  | nil =>
    have hat : atOp ⟨i, p, rest⟩ ['@'] = false := h
    rw [annotations, if_neg (by simp [hat])]
    simp [past]
  | cons a as ih =>
    obtain ⟨ha, has⟩ := h
    have hread := annotationAttachment_of_valid ha i p
    have hat : atOp ⟨i, p, lexemes a.words ++ (lexemes (as.flatMap Attachment.words) ++ rest)⟩
        ['@'] = true := ha.sign
    rw [List.flatMap_cons, lexemes_append, List.append_assoc, annotations, if_pos hat]
    split
    · rename_i heq
      rw [hread] at heq
      cases heq
    · rename_i heq
      rw [hread] at heq
      cases heq
      simp only [past, ih has, List.map_cons, Branch.shapesAll_cons, Attachment.branch,
        Branch.shapes_span, Branch.words_span, List.singleton_append, List.length_append,
        lexemes_append, latest_append]
      rw [Nat.add_assoc]

theorem exists_of_annotations {i : Nat} {p : Option Lexeme} {ws : List Word} {ss : List Shape}
    {c : Cursor} (h : annotations ⟨i, p, lexemes ws⟩ = .ok (ss, c)) :
    ∃ (as : List Attachment) (rest : List Word), ws = as.flatMap Attachment.words ++ rest
      ∧ Attachment.AllValid as (lexemes rest) := by
  generalize hd : (⟨i, p, lexemes ws⟩ : Cursor) = d at h
  fun_induction annotations d generalizing i p ws ss c with
  | case1 => simp at h
  | case2 => simp at h
  | case3 d hat s after ha more last hm ih =>
    subst hd
    obtain ⟨a, rest, rfl, hav⟩ := exists_of_annotationAttachment hat ha
    rw [lexemes_append, annotationAttachment_of_valid hav] at ha
    cases ha
    obtain ⟨as, rest, rfl, has⟩ := ih rfl hm
    rw [lexemes_append] at hav
    exact ⟨a :: as, rest, by simp, hav, has⟩
  | case4 d hat =>
    subst hd
    exact ⟨[], ws, rfl, by simpa [Attachment.AllValid, startsOp, atOp, head?] using hat⟩

theorem qualifiers_of_valid {allowed : List Text} {qs : List Word} {rest : List Lexeme}
    (h : ∀ w ∈ qs, w.lexeme.kind = .ident ∧ w.lexeme.text ∈ allowed)
    (hrest : ∀ l ∈ rest.head?, ¬ (l.kind = .ident ∧ l.text ∈ allowed)) (i : Nat)
    (p : Option Lexeme) :
    qualifiers allowed ⟨i, p, lexemes qs ++ rest⟩
      = (qs.map (·.lexeme.text), past i p qs rest) := by
  induction qs generalizing i p with
  | nil =>
    rw [qualifiers]
    cases rest with
    | nil => rfl
    | cons l rest =>
      have hl : (decide (l.kind = .ident) && allowed.contains l.text) = false := by
        simpa using hrest l rfl
      simp only [lexemes_nil, List.nil_append, hl, Bool.false_eq_true, if_false]
      rfl
  | cons q qs ih =>
    obtain ⟨hk, ht⟩ := h q List.mem_cons_self
    have hq : (decide (q.lexeme.kind = .ident) && allowed.contains q.lexeme.text) = true := by
      simp [hk, ht]
    rw [qualifiers]
    simp only [lexemes_cons, List.cons_append, hq, if_true, advance_index_cons]
    rw [ih fun w hw => h w (List.mem_cons_of_mem _ hw)]
    simp only [past, List.map_cons, List.length_cons, lexemes_cons, latest_cons]
    rw [Nat.add_right_comm, Nat.add_assoc]

theorem exists_qualifiers (allowed : List Text) (ws : List Word) :
    ∃ qs rest : List Word, ws = qs ++ rest
      ∧ (∀ w ∈ qs, w.lexeme.kind = .ident ∧ w.lexeme.text ∈ allowed)
      ∧ ∀ l ∈ (lexemes rest).head?, ¬ (l.kind = .ident ∧ l.text ∈ allowed) := by
  induction ws with
  | nil => exact ⟨[], [], rfl, by simp, by simp⟩
  | cons w ws ih =>
    by_cases hw : w.lexeme.kind = .ident ∧ w.lexeme.text ∈ allowed
    · obtain ⟨qs, rest, rfl, hqs, hrest⟩ := ih
      refine ⟨w :: qs, rest, rfl, ?_, hrest⟩
      intro v hv
      rcases List.mem_cons.1 hv with rfl | hv
      · exact hw
      · exact hqs v hv
    · exact ⟨[], w :: ws, rfl, by simp, by simpa using hw⟩

theorem qualifierShapes_map (i : Nat) (p : Option Lexeme) (ls : List Lexeme) (qs : List Word) :
    qualifierShapes ⟨i, p, ls⟩ (qs.map (·.lexeme.text))
      = Branch.shapesAll i (qs.map (.leaf .keyword)) := by
  unfold qualifierShapes
  induction qs generalizing i with
  | nil => simp
  | cons q qs ih =>
    have := ih (i + 1)
    simp only at this
    simp only [List.map_cons, List.mapIdx_cons, Nat.add_zero, Branch.shapesAll_cons,
      Branch.shapes_leaf, Branch.words_leaf, List.length_singleton, List.singleton_append, ← this]
    congr 2
    funext k _
    rw [Nat.add_right_comm, Nat.add_assoc]

section Leading

variable {allowed : List Text} {h : Leading} {rest : List Lexeme}

theorem annotations_leading (hv : h.Valid allowed rest) (i : Nat) (p : Option Lexeme) :
    annotations ⟨i, p, lexemes h.words ++ rest⟩
      = .ok (Branch.shapesAll i (h.annotations.map Attachment.branch),
          past i p (h.annotations.flatMap Attachment.words) (lexemes h.qualifiers ++ rest)) := by
  rw [Leading.words, lexemes_append, List.append_assoc]
  exact annotations_of_valid hv.annotations i p

theorem qualifiers_leading (hv : h.Valid allowed rest) (i : Nat) (p : Option Lexeme) :
    qualifiers allowed
        (past i p (h.annotations.flatMap Attachment.words) (lexemes h.qualifiers ++ rest))
      = (h.qualifiers.map (·.lexeme.text), past i p h.words rest) := by
  rw [past, qualifiers_of_valid hv.qualifiers hv.ends, past_append, Leading.words]

theorem shapesAll_leading (h : Leading) (i : Nat) (p : Option Lexeme) (ls : List Lexeme) :
    Branch.shapesAll i (h.annotations.map Attachment.branch)
        ++ (past i p (h.annotations.flatMap Attachment.words) ls).qualifierShapes
          (h.qualifiers.map (·.lexeme.text))
      = Branch.shapesAll i h.branches := by
  rw [past, qualifierShapes_map, Leading.branches, Branch.shapesAll_append,
    Attachment.wordsAll_branch]

theorem exists_leading (allowed : List Text) {i : Nat} {p : Option Lexeme} {ws : List Word}
    {r : List Shape × Cursor} (hr : annotations ⟨i, p, lexemes ws⟩ = .ok r) :
    ∃ (h : Leading) (rest : List Word), ws = h.words ++ rest ∧ h.Valid allowed (lexemes rest) := by
  obtain ⟨as, rest, rfl, has⟩ := exists_of_annotations hr
  obtain ⟨qs, rest, rfl, hqs, hrest⟩ := exists_qualifiers allowed rest
  rw [lexemes_append] at has
  exact ⟨⟨as, qs⟩, rest, by simp [Leading.words], has, hqs, hrest⟩

end Leading

/-! ## Semicolons that may stand behind a block -/

theorem skipSemicolon_of_valid {s : Option Word} {rest : List Lexeme}
    (h : match s with
      | none => startsOp [';'] rest = false
      | some w => w.lexeme.isOp [';'] = true) (i : Nat) (p : Option Lexeme) :
    skipSemicolon ⟨i, p, lexemes s.toList ++ rest⟩ = past i p s.toList rest := by
  cases s with
  | none =>
    have hr : atOp ⟨i, p, rest⟩ [';'] = false := h
    simp [skipSemicolon, hr, past]
  | some w =>
    have hw : w.lexeme.isOp [';'] = true := h
    simp [skipSemicolon, hw, past]

theorem exists_semicolon (ws : List Word) :
    ∃ (s : Option Word) (rest : List Word), ws = s.toList ++ rest
      ∧ match s with
        | none => startsOp [';'] (lexemes rest) = false
        | some w => w.lexeme.isOp [';'] = true := by
  by_cases h : startsOp [';'] (lexemes ws) = true
  · obtain ⟨w, rest, rfl, hw⟩ := exists_cons_of_startsOp h
    exact ⟨some w, rest, rfl, hw⟩
  · exact ⟨none, ws, rfl, by simpa using h⟩

/-! ## Members of no interest -/

theorem stops_of_ending {e : Ending} {p : Option Lexeme} {rest : List Lexeme}
    (h : e.Valid p rest) : Stops memberRule p (lexemes e.words ++ rest) := by
  cases e with
  | semicolon w =>
    have hw : w.lexeme.isOp [';'] = true := h
    simp [Ending.words, Stops, memberRule, hw]
  | block g s =>
    obtain ⟨hg, hp, -⟩ := h
    have ho : g.opening.lexeme.isOp ['\x7b'] = true := hg.opening
    simp [Ending.words, Group.words, Stops, memberRule, opensBlock, ho, hp]

theorem otherMember_of_valid {content : List Word} {e : Ending} {p : Option Lexeme}
    {rest : List Lexeme} (hc : Passes memberRule p (lexemes content))
    (he : e.Valid (latest p (lexemes content)) rest) (first i : Nat) :
    otherMember first ⟨i, p, lexemes (content ++ e.words) ++ rest⟩
      = .ok (.node .other first (i + (content ++ e.words).length) .none [],
          past i p (content ++ e.words) rest) := by
  have hscan := scan_words hc (stops_of_ending he) i
  rw [lexemes_append, List.append_assoc, otherMember]
  change (scan memberRule _).bind _ = _
  rw [hscan]
  cases e with
  | semicolon w =>
    have hw : w.lexeme.isOp [';'] = true := he
    simp [Except.bind, Ending.words, hw, pure, Except.pure, past, Nat.add_assoc]
  | block g s =>
    obtain ⟨hg, -, hs⟩ := he
    have ho : g.opening.lexeme.isOp ['\x7b'] = true := hg.opening
    have hend : atEnd (past i p content (lexemes (Ending.block g s).words ++ rest)) = false := rfl
    have hat : atOp (past i p content (lexemes (Ending.block g s).words ++ rest)) [';'] = false :=
      (Lexeme.isOp_eq ho _).trans (by decide)
    simp only [Except.bind, hend, hat, Bool.false_eq_true, if_false, bind, pure, Except.pure]
    rw [Ending.words, lexemes_append, List.append_assoc, past, skipGroup_of_valid hg, past_append]
    have hlast : skipSemicolon (past i p (content ++ g.words) (lexemes s.toList ++ rest))
        = past i p (content ++ (g.words ++ s.toList)) rest := by
      rw [past, skipSemicolon_of_valid hs, past_append, List.append_assoc]
    simp only [hlast]
    rfl

theorem exists_of_otherMember {first i : Nat} {p : Option Lexeme} {ws : List Word}
    {r : Shape × Cursor} (h : otherMember first ⟨i, p, lexemes ws⟩ = .ok r) :
    ∃ (content : List Word) (e : Ending) (rest : List Word), ws = content ++ e.words ++ rest
      ∧ Passes memberRule p (lexemes content)
      ∧ e.Valid (latest p (lexemes content)) (lexemes rest) := by
  obtain ⟨stop, hscan, h⟩ := bind_ok h
  obtain ⟨content, bs, rfl, hp, hs, rfl⟩ := exists_of_scan hscan
  refine ⟨content, ?_⟩
  obtain ⟨hend, h⟩ := ok_of_check h
  obtain ⟨w, bs, rfl⟩ := exists_cons_of_not_atEnd hend
  have hstop := memberRule_eq_stop.1 hs
  by_cases hw : w.lexeme.isOp [';'] = true
  · exact ⟨.semicolon w, bs, by simp [Ending.words], hp, hw⟩
  · have hb : w.lexeme.isOp ['{'] = true
        ∧ opensTypeBody (latest p (lexemes content)) = false := by
      simpa [hw, opensBlock] using hstop
    rw [Bool.not_eq_true] at hw
    simp only [lexemes_cons, atOp_cons, hw, Bool.false_eq_true, if_false] at h
    obtain ⟨last, hg, -⟩ := bind_ok h
    have hat : startsOp ['{'] (lexemes (w :: bs)) = true := hb.1
    obtain ⟨g, rest, hbs, hg, -⟩ := exists_group_of_skipGroup (b := .brace) hat hg
    obtain ⟨s, rest, rfl, hsemi⟩ := exists_semicolon rest
    exact ⟨.block g s, rest, by simp [Ending.words, hbs], hp, hg, hb.2, hsemi⟩

/-! ## Functions -/

theorem resourcePath_of_valid {path : List Word} {rest : List Lexeme} (hpath : path ≠ [])
    (hp : Passes pathRule none (lexemes path)) (hparen : startsOp ['('] rest = true) (i : Nat)
    (p : Option Lexeme) :
    resourcePath ⟨i, p, lexemes path ++ rest⟩
      = .ok (.span .resourcePath i (i + path.length), past i p path rest) := by
  have hstops : Stops pathRule (latest p (lexemes path)) rest := by
    cases rest with
    | nil => trivial
    | cons l rest =>
      have hl : l.isOp ['('] = true := hparen
      simp [Stops, pathRule, hl]
  have hscan := scan_words (hp.congr (q := p) fun _ => rfl) hstops i
  have hat : atOp (past i p path rest) ['('] = true := hparen
  have hne : (past i p path rest).index ≠ i := by
    have := List.length_pos_iff.2 hpath
    simp only [past]
    omega
  unfold resourcePath
  change (scan pathRule _).bind _ = _
  rw [hscan]
  simp only [Except.bind, hat, Bool.not_true, Bool.false_eq_true, if_false, if_neg hne]
  rfl

theorem accessPath_of_valid {kind : Kind} {path : List Word} {rest : List Lexeme}
    (hpath : if kind = .resourceAccessorDefinition then path ≠ [] else path = [])
    (hp : Passes pathRule none (lexemes path))
    (hparen : kind = .resourceAccessorDefinition → startsOp ['('] rest = true) (i : Nat)
    (p : Option Lexeme) :
    accessPath ⟨i, p, lexemes path ++ rest⟩ kind
      = .ok (Branch.shapesAll i (if path.isEmpty then [] else [.span .resourcePath path]),
          past i p path rest) := by
  unfold accessPath
  by_cases hk : kind = .resourceAccessorDefinition
  · rw [if_pos hk] at hpath ⊢
    have hempty : ¬ path.isEmpty = true := by simpa using hpath
    rw [resourcePath_of_valid hpath hp (hparen hk), if_neg hempty]
    simp [bind, Except.bind, pure, Except.pure]
  · rw [if_neg hk] at hpath ⊢
    simp [hpath, past]

theorem exists_of_accessPath {kind : Kind} {i : Nat} {p : Option Lexeme} {ws : List Word}
    {r : List Shape × Cursor} (h : accessPath ⟨i, p, lexemes ws⟩ kind = .ok r) :
    ∃ path rest : List Word, ws = path ++ rest
      ∧ (if kind = .resourceAccessorDefinition then path ≠ [] else path = [])
      ∧ Passes pathRule none (lexemes path)
      ∧ (kind = .resourceAccessorDefinition → startsOp ['('] (lexemes rest) = true) := by
  unfold accessPath at h
  split_ifs at h ⊢ with hk
  · obtain ⟨r', hr, -⟩ := bind_ok h
    obtain ⟨stop, hscan, h⟩ := bind_ok hr
    obtain ⟨path, rest, rfl, hp, -, rfl⟩ := exists_of_scan hscan
    obtain ⟨hparen, h⟩ := ok_of_guard h
    obtain ⟨hidx, -⟩ := ok_of_check h
    refine ⟨path, rest, rfl, ?_, hp.congr fun _ => rfl, fun _ => hparen⟩
    rintro rfl
    exact hidx rfl
  · exact ⟨[], ws, rfl, rfl, .nil, fun h => absurd h hk⟩

theorem returnType_of_valid {r : Returns} {rest : List Lexeme} (h : r.Valid rest) (i : Nat)
    (p : Option Lexeme) :
    ∃ s, returnType ⟨i, p, lexemes r.words ++ rest⟩ = .ok (s, past i p r.words rest)
      ∧ r.branch.shapes i = [s] := by
  have hann := annotations_of_valid h.annotations (i + 1) (some r.keyword.lexeme)
  have hscan := scan_words h.type h.ends
    (i + 1 + (r.annotations.flatMap Attachment.words).length)
  have hlen := List.length_pos_iff.2 h.ne_nil
  refine ⟨_, ?_, by rw [Returns.branch, Branch.shapes_node]⟩
  rw [Returns.words, lexemes_cons, lexemes_append, List.cons_append, List.append_assoc, returnType,
    advance_index_cons, hann]
  change (scan typeRule ⟨i + 1 + _, r.latest, _⟩).bind _ = _
  rw [hscan]
  simp only [Except.bind]
  rw [if_neg (by simp only [past]; omega)]
  simp only [pure, Except.pure, past, Branch.wordsAll_cons, Branch.words_leaf,
    Branch.wordsAll_append, Attachment.wordsAll_branch, Branch.words_span, Branch.wordsAll_nil,
    Branch.shapesAll_cons, Branch.shapes_leaf, Branch.shapesAll_append, Branch.shapes_span,
    Branch.shapesAll_nil, List.append_nil, List.length_append, List.length_cons, List.length_nil,
    latest_cons, lexemes_cons, lexemes_append, latest_append,
    Returns.latest, List.cons_append]
  congr 3 <;> omega

theorem exists_of_returnType {i : Nat} {p : Option Lexeme} {ws : List Word} {r : Shape × Cursor}
    (hw : startsWord "returns".toList (lexemes ws) = true)
    (h : returnType ⟨i, p, lexemes ws⟩ = .ok r) :
    ∃ (t : Returns) (rest : List Word), ws = t.words ++ rest ∧ t.Valid (lexemes rest) := by
  obtain ⟨keyword, ws, rfl, hkeyword⟩ := exists_cons_of_startsWord hw
  obtain ⟨a, ha, h⟩ := bind_ok h
  rw [lexemes_cons, advance_index_cons] at ha
  obtain ⟨as, bs, rfl, has⟩ := exists_of_annotations ha
  rw [lexemes_append, annotations_of_valid has] at ha
  cases ha
  obtain ⟨stop, hscan, h⟩ := bind_ok h
  obtain ⟨type, rest, rfl, hp, hs, rfl⟩ := exists_of_scan hscan
  obtain ⟨hidx, -⟩ := ok_of_check h
  rw [lexemes_append] at has
  refine ⟨⟨keyword, as, type⟩, rest, by simp [Returns.words], hkeyword, has, ?_, hp, hs⟩
  rintro rfl
  exact hidx rfl

theorem shapesAll_parameterBranches (i depth : Nat) (run ws : List Word) :
    Branch.shapesAll i (parameterBranches depth run ws)
      = (commaRuns (i + run.length) depth (if run.isEmpty then none else some i) (lexemes ws)).map
          fun (a, b) => Shape.span .parameter a b := by
  have hrun : ∀ (j : Nat) (r : List Word),
      Branch.shapesAll j (if r.isEmpty then [] else [.span .parameter r])
        = ((if r.isEmpty then none else some j).toList.map (·, j + r.length)).map
          fun (a, b) => Shape.span .parameter a b := by
    intro j r
    cases r <;> simp
  have hwords : ∀ r : List Word,
      Branch.wordsAll (if r.isEmpty then [] else [.span .parameter r]) = r := by
    intro r
    cases r <;> simp
  induction ws generalizing i depth run with
  | nil => exact hrun i run
  | cons w ws ih =>
    rw [parameterBranches, lexemes_cons, commaRuns]
    by_cases hc : (decide (depth = 0) && w.lexeme.isOp [',']) = true
    · rw [if_pos hc, if_pos hc, Branch.shapesAll_append, hrun, hwords, Branch.shapesAll_cons,
        Branch.shapes_word, Branch.words_word, List.nil_append, List.map_append]
      congr 1
      exact ih (i + run.length + 1) 0 []
    · rw [if_neg hc, if_neg hc]
      have hfirst : (if (run ++ [w]).isEmpty then none else some i)
          = some ((if run.isEmpty then none else some i).getD (i + run.length)) := by
        cases run <;> simp
      have := ih i (depthAfter depth w.lexeme) (run ++ [w])
      rw [hfirst, List.length_append, List.length_singleton, ← Nat.add_assoc] at this
      exact this

/-- A scan goes past nested lexemes if its rule stops in front of none of them. -/
theorem passes_of_nested {rule : Option Lexeme → Lexeme → Step} {ls : List Lexeme} (h : Nested ls)
    (hrule : ∀ p l, l.closes? = none → rule p l = .plain l) (p : Option Lexeme) :
    Passes rule p ls := by
  induction h generalizing p with
  | nil => exact .nil
  | plain ho hc _ ih => exact .pass (by simp [hrule _ _ hc, Step.plain, ho, hc]) (ih _)
  | group ho hi hcl _ _ ih =>
    have hc := Lexeme.closes?_of_opens? ho
    exact .group (by simp [hrule _ _ hc, Step.plain, ho]) hi hcl (ih _)

theorem nested_of_passes {rule : Option Lexeme → Lexeme → Step} {p : Option Lexeme}
    {ls : List Lexeme} (h : Passes rule p ls)
    (hrule : ∀ p l, rule p l = .stop ∨ rule p l = .plain l) : Nested ls := by
  induction h with
  | nil => exact .nil
  | @pass p l ls hr _ ih =>
    rcases hrule p l with hs | hs
    · rw [hr] at hs
      cases hs
    · rw [hr, Step.plain] at hs
      split at hs
      · cases hs
      · rename_i ho
        split_ifs at hs with hc
        exact .plain ho (by simpa using hc) ih
  | @group p b l close inner ls hr hi hcl _ ih =>
    rcases hrule p l with hs | hs
    · rw [hr] at hs
      cases hs
    · rw [hr, Step.plain] at hs
      split at hs
      · rename_i ho
        cases hs
        exact .group ho hi hcl ih
      · split_ifs at hs

theorem passes_paramsRule {ls : List Lexeme} (p : Option Lexeme) :
    Passes paramsRule p ls ↔ Nested ls := by
  constructor
  · intro h
    exact nested_of_passes h fun _ _ => Step.stop_or_plain _ _
  · intro h
    refine passes_of_nested h (fun p l hc => ?_) p
    unfold paramsRule
    rw [if_neg]
    intro hp
    rw [Lexeme.closes?_of_isOp (b := .paren) hp] at hc
    cases hc

/-- What a signature leaves when its parameters have been read. -/
theorem signature_params {g : Group} (h : g.Valid .paren) (rest : List Lexeme) (i : Nat)
    (p : Option Lexeme) :
    signature ⟨i, p, lexemes g.words ++ rest⟩
      = (if atWord (past i p g.words rest) "returns".toList then
          (returnType (past i p g.words rest)).map fun t =>
            (.node .functionSignature i t.2.index .none
              (Branch.shapesAll i (Signature.paramsBranches g) ++ [t.1]), t.2)
        else .ok (.node .functionSignature i (i + g.words.length) .none
          (Branch.shapesAll i (Signature.paramsBranches g)), past i p g.words rest)) := by
  have ho : g.opening.lexeme.isOp ['('] = true := h.opening
  have hc : g.closing.lexeme.isOp [')'] = true := Lexeme.isOp_of_closes? h.closing
  have hstops : Stops paramsRule (latest (some g.opening.lexeme) (lexemes g.inside))
      (g.closing.lexeme :: rest) := paramsRule_eq_stop.2 hc
  have hscan := scan_words ((passes_paramsRule _).2 h.inside) hstops (i + 1)
  have hpast : past i p g.words rest
      = ⟨i + 1 + g.inside.length + 1, some g.closing.lexeme, rest⟩ := by
    simp only [past, Group.words, List.length_cons, List.length_append, List.length_nil,
      lexemes_cons, lexemes_append, latest_cons, latest_append, lexemes_nil, latest_nil]
    congr 1
    omega
  have hshapes := shapesAll_parameterBranches (i + 1) 0 [] g.inside
  unfold signature
  rw [hpast]
  simp only [Group.words, lexemes_cons, lexemes_append, lexemes_nil, List.cons_append,
    List.append_assoc, List.nil_append, atOp_cons, ho, Bool.not_true, Bool.false_eq_true, if_false,
    advance_index_cons]
  change (scan paramsRule _).bind _ = _
  rw [hscan]
  simp only [Except.bind, atEnd_past_cons, Bool.false_eq_true, if_false, lexemesTo_past,
    advance_past_cons, Signature.paramsBranches, Branch.shapesAll_cons, Branch.shapes_leaf,
    Branch.words_leaf, Branch.shapesAll_append, wordsAll_parameterBranches, hshapes,
    Branch.shapesAll_nil, List.append_nil, List.length_cons, List.length_nil, List.length_append]
  rw [show i + (g.inside.length + (0 + 1) + 1) = i + 1 + g.inside.length + 1 by omega]
  simp only [List.isEmpty_nil, if_true, Nat.add_zero, Nat.zero_add, List.cons_append,
    List.nil_append, List.append_assoc]
  split
  · cases returnType ⟨i + 1 + g.inside.length + 1, some g.closing.lexeme, rest⟩ <;> rfl
  · rfl

theorem signature_of_valid {s : Signature} {rest : List Lexeme} (h : s.Valid rest) (i : Nat)
    (p : Option Lexeme) :
    ∃ sh, signature ⟨i, p, lexemes s.words ++ rest⟩ = .ok (sh, past i p s.words rest)
      ∧ s.branch.shapes i = [sh] := by
  obtain ⟨params, returns⟩ := s
  obtain ⟨hp, hr⟩ := h
  simp only at hp hr
  rw [Signature.words, lexemes_append, List.append_assoc, signature_params hp]
  cases returns with
  | none =>
    have hat : atWord (past i p params.words rest) "returns".toList = false := hr
    refine ⟨_, ?_, by rw [Signature.branch, Branch.shapes_node]⟩
    simp only [Signature.returnsWords, lexemes_nil, List.nil_append, hat, Bool.false_eq_true,
      if_false, Option.toList_none, List.map_nil, List.append_nil,
      Signature.wordsAll_paramsBranches]
  | some r =>
    have hat : atWord (past i p params.words (lexemes r.words ++ rest)) "returns".toList = true :=
      hr.keyword
    obtain ⟨t, ht, hs⟩ := returnType_of_valid hr (i + params.words.length)
      (latest p (lexemes params.words))
    refine ⟨_, ?_, by rw [Signature.branch, Branch.shapes_node]⟩
    simp only [Signature.returnsWords, hat, if_true]
    rw [past, ht, past_append]
    simp only [Except.map, Option.toList_some, List.map_cons, List.map_nil, Branch.shapesAll_append,
      Branch.wordsAll_append, Signature.wordsAll_paramsBranches, Branch.shapesAll_cons, hs,
      Branch.shapesAll_nil, Branch.wordsAll_cons, Returns.words_branch, Branch.wordsAll_nil,
      List.append_nil, past]

theorem exists_of_signature {i : Nat} {p : Option Lexeme} {ws : List Word} {r : Shape × Cursor}
    (h : signature ⟨i, p, lexemes ws⟩ = .ok r) :
    ∃ (s : Signature) (rest : List Word), ws = s.words ++ rest ∧ s.Valid (lexemes rest) := by
  have h' := h
  obtain ⟨hopen, h'⟩ := ok_of_guard h'
  obtain ⟨w, ws, rfl, hw⟩ := exists_cons_of_startsOp hopen
  obtain ⟨close, hscan, h'⟩ := bind_ok h'
  rw [lexemes_cons, advance_index_cons] at hscan
  change scan paramsRule _ = _ at hscan
  obtain ⟨inside, bs, rfl, hp, hs, rfl⟩ := exists_of_scan hscan
  obtain ⟨hend, -⟩ := ok_of_check h'
  obtain ⟨v, rest, rfl⟩ := exists_cons_of_not_atEnd hend
  have hg : Group.Valid .paren ⟨w, inside, v⟩ :=
    ⟨hw, (passes_paramsRule _).1 hp,
      Lexeme.closes?_of_isOp (b := .paren) (paramsRule_eq_stop.1 hs)⟩
  have hws : w :: (inside ++ v :: rest) = Group.words ⟨w, inside, v⟩ ++ rest := by
    simp [Group.words]
  rw [hws, lexemes_append, signature_params hg, atWord_past] at h
  rw [hws]
  by_cases hat : startsWord "returns".toList (lexemes rest) = true
  · rw [if_pos hat] at h
    obtain ⟨t, ht⟩ := map_ok h
    obtain ⟨t, rest, rfl, hvalid⟩ := exists_of_returnType hat ht
    exact ⟨⟨⟨w, inside, v⟩, some t⟩, rest, by simp [Signature.words, Signature.returnsWords],
      hg, hvalid⟩
  · exact ⟨⟨⟨w, inside, v⟩, none⟩, rest, by simp [Signature.words, Signature.returnsWords],
      hg, by simpa using hat⟩

theorem body_block {g : Group} (h : g.Valid .brace) (rest : List Lexeme) (i : Nat)
    (p : Option Lexeme) :
    ∃ s, body ⟨i, p, lexemes g.words ++ rest⟩ = .ok (s, past i p g.words rest)
      ∧ s.toList = Branch.shapesAll i (Body.block g).branches := by
  have hat : atOp ⟨i, p, lexemes g.words ++ rest⟩ ['{'] = true := h.opening
  refine ⟨some (.node .functionBodyBlock i (i + g.words.length) .none
    [.leaf .openBrace i, .leaf .closeBrace (i + g.words.length - 1)]), ?_, ?_⟩
  · simp only [body, hat, if_true, skipGroup_of_valid h, bind, Except.bind, pure, Except.pure]
    rfl
  · have hlen : i + g.words.length - 1 = i + 1 + g.inside.length := by
      simp only [Group.words, List.length_cons, List.length_append, List.length_nil]
      omega
    rw [hlen]
    simp [Body.branches, Group.words]

theorem body_clause {sign semicolon : Word} {content : List Word}
    (h : (Body.clause sign content semicolon).Valid) (rest : List Lexeme) (i : Nat)
    (p : Option Lexeme) :
    ∃ s, body ⟨i, p, lexemes (Body.clause sign content semicolon).words ++ rest⟩
          = .ok (s, past i p (Body.clause sign content semicolon).words rest)
      ∧ s.toList = Branch.shapesAll i (Body.clause sign content semicolon).branches := by
  obtain ⟨hsign, hp, hsemi⟩ := h
  have hscan := scan_words (t := semicolon.lexeme :: rest) (hp.congr (q := p) fun _ => rfl)
    (clauseRule_eq_stop.2 hsemi) i
  have hbrace : sign.lexeme.isOp ['{'] = false := by
    rcases hsign with hs | hs
    · exact (Lexeme.isOp_eq hs _).trans (by decide)
    · exact (Lexeme.isOp_eq hs _).trans (by decide)
  have hor : (sign.lexeme.isOp "=>".toList || sign.lexeme.isOp ['=']) = true := by
    simpa using hsign
  refine ⟨some (.node (Body.clauseKind sign) i (i + (content.length + 2)) .none []), ?_, ?_⟩
  · simp only [body, Body.words, lexemes_cons, lexemes_append, lexemes_nil, List.cons_append,
      List.append_assoc, List.nil_append, atOp_cons, hbrace, Bool.false_eq_true, if_false, hor,
      if_true]
    change (scan clauseRule _).bind _ = _
    rw [lexemes_cons, List.cons_append] at hscan
    rw [hscan]
    simp only [Except.bind, atEnd_cons, Bool.false_eq_true, if_false, advance_index_cons, pure,
      Except.pure, past, List.length_cons, List.length_append, List.length_nil, lexemes_cons,
      lexemes_append, lexemes_nil, latest_cons, latest_append, latest_nil]
    rfl
  · simp [Body.branches]

theorem body_bare {semicolon : Word} (h : semicolon.lexeme.isOp [';'] = true)
    (rest : List Lexeme) (i : Nat) (p : Option Lexeme) :
    body ⟨i, p, semicolon.lexeme :: rest⟩ = .ok (none, past i p [semicolon] rest) := by
  have h1 : semicolon.lexeme.isOp ['{'] = false := (Lexeme.isOp_eq h _).trans (by decide)
  have h2 : semicolon.lexeme.isOp "=>".toList = false := (Lexeme.isOp_eq h _).trans (by decide)
  have h3 : semicolon.lexeme.isOp ['='] = false := (Lexeme.isOp_eq h _).trans (by decide)
  simp only [body, atOp_cons, h1, h2, h3, h, Bool.false_eq_true, Bool.or_self, if_false, if_true,
    advance_index_cons]
  rfl

theorem body_of_valid {b : Body} (h : b.Valid) (rest : List Lexeme) (i : Nat)
    (p : Option Lexeme) :
    ∃ s, body ⟨i, p, lexemes b.words ++ rest⟩ = .ok (s, past i p b.words rest)
      ∧ s.toList = Branch.shapesAll i b.branches := by
  cases b with
  | block g => exact body_block h rest i p
  | clause sign content semicolon => exact body_clause h rest i p
  | bare semicolon => exact ⟨none, body_bare h rest i p, by simp [Body.branches]⟩

theorem exists_of_body {i : Nat} {p : Option Lexeme} {ws : List Word} {r : Option Shape × Cursor}
    (h : body ⟨i, p, lexemes ws⟩ = .ok r) :
    ∃ (b : Body) (rest : List Word), ws = b.words ++ rest ∧ b.Valid := by
  cases ws with
  | nil => simp [body, fail] at h
  | cons w ws =>
    simp only [body, lexemes_cons, atOp_cons] at h
    by_cases hbrace : w.lexeme.isOp ['\x7b'] = true
    · simp only [hbrace, if_true] at h
      obtain ⟨last, hg, -⟩ := bind_ok h
      have hat : startsOp ['\x7b'] (lexemes (w :: ws)) = true := hbrace
      obtain ⟨g, rest, hws, hg, -⟩ := exists_group_of_skipGroup (b := .brace) hat hg
      exact ⟨.block g, rest, hws, hg⟩
    · by_cases hsign : (w.lexeme.isOp "=>".toList || w.lexeme.isOp ['=']) = true
      · simp only [hbrace, Bool.false_eq_true, if_false, hsign, if_true] at h
        obtain ⟨stop, hscan, h⟩ := bind_ok h
        change scan clauseRule ⟨i, p, lexemes (w :: ws)⟩ = _ at hscan
        obtain ⟨as, bs, hws, hp, hs, rfl⟩ := exists_of_scan hscan
        rcases as with _ | ⟨sign, content⟩
        · rw [List.nil_append] at hws
          subst hws
          have hw := clauseRule_eq_stop.1 hs
          rw [Lexeme.isOp_eq hw, Lexeme.isOp_eq hw] at hsign
          exact absurd hsign (by decide)
        · obtain ⟨rfl, rfl⟩ := List.cons.inj hws
          obtain ⟨hend, -⟩ := ok_of_check h
          obtain ⟨s, rest, rfl⟩ := exists_cons_of_not_atEnd hend
          exact ⟨.clause w content s, rest, by simp [Body.words], by simpa using hsign,
            hp.congr fun _ => rfl, clauseRule_eq_stop.1 hs⟩
      · simp only [hbrace, Bool.false_eq_true, if_false, hsign] at h
        by_cases hsemi : w.lexeme.isOp [';'] = true
        · exact ⟨.bare w, ws, rfl, hsemi⟩
        · simp [hsemi, fail] at h

theorem signature_startsOp {s : Signature} {rest : List Lexeme} (h : s.Valid rest)
    (ls : List Lexeme) : startsOp ['('] (lexemes s.words ++ ls) = true := by
  have ho : s.params.opening.lexeme.isOp ['('] = true := h.params.opening
  simpa [Signature.words, Group.words, startsOp] using ho

theorem function_of_valid {kind : Kind} {f : Function} (h : f.Valid kind) (rest : List Lexeme)
    (first : Nat) (leading : List Shape) (i : Nat) (p : Option Lexeme) :
    function kind first leading ⟨i, p, lexemes f.words ++ rest⟩
      = .ok (.node kind first (i + f.words.length) .none (leading ++ Branch.shapesAll i f.branches),
          past i p f.words rest) := by
  have hbody : lexemes f.body.words ≠ [] := by simpa [lexemes] using f.body.words_ne_nil
  have hnil : f.signature.Valid (lexemes f.body.words ++ []) := by simpa using h.signature
  have hsig : f.signature.Valid (lexemes f.body.words ++ rest) := hnil.of_append hbody
  have hpath := accessPath_of_valid h.path h.passes
    (fun _ => signature_startsOp hsig (lexemes f.body.words ++ rest)) (i + 1 + 1)
    (some f.name.lexeme)
  obtain ⟨sh, hs, hsh⟩ := signature_of_valid hsig (i + 1 + 1 + f.path.length)
    (latest (some f.name.lexeme) (lexemes f.path))
  obtain ⟨b, hb, hbs⟩ := body_of_valid h.body rest
    (i + 1 + 1 + f.path.length + f.signature.words.length)
    (latest (latest (some f.name.lexeme) (lexemes f.path)) (lexemes f.signature.words))
  have hwords : Branch.wordsAll (if f.path.isEmpty then [] else [.span .resourcePath f.path])
      = f.path := by
    cases f.path <;> simp
  simp only [function, Function.words, lexemes_cons, lexemes_append, List.cons_append,
    List.append_assoc, advance_index_cons, atIdent_cons, h.name, decide_true, Bool.not_true,
    Bool.false_eq_true, if_false, bind, Except.bind, pure, Except.pure]
  rw [hpath]
  simp only [past]
  rw [hs]
  simp only [past]
  rw [hb]
  simp only [past, hbs, Function.branches, Branch.shapesAll_cons, Branch.shapes_leaf,
    Branch.words_leaf, Branch.shapesAll_append, hwords, hsh, Signature.words_branch,
    List.length_cons, List.length_append, List.length_nil, List.cons_append, List.nil_append,
    lexemes_cons, lexemes_append, latest_cons, latest_append, Nat.zero_add]
  congr 3 <;> omega

theorem exists_of_function {kind : Kind} {first : Nat} {leading : List Shape} {i : Nat}
    {p : Option Lexeme} {ws : List Word} {r : Shape × Cursor}
    (hw : startsWord "function".toList (lexemes ws) = true)
    (h : function kind first leading ⟨i, p, lexemes ws⟩ = .ok r) :
    ∃ (f : Function) (rest : List Word), ws = f.words ++ rest ∧ f.Valid kind := by
  obtain ⟨keyword, ws, rfl, hkeyword⟩ := exists_cons_of_startsWord hw
  obtain ⟨hident, h⟩ := ok_of_guard h
  obtain ⟨name, ws, rfl, hname⟩ := exists_cons_of_atIdent hident
  obtain ⟨a, ha, h⟩ := bind_ok h
  simp only [lexemes_cons, advance_index_cons] at ha
  obtain ⟨path, ws, rfl, hpath, hp, hparen⟩ := exists_of_accessPath ha
  rw [lexemes_append, accessPath_of_valid hpath hp hparen] at ha
  cases ha
  obtain ⟨b, hb, h⟩ := bind_ok h
  obtain ⟨s, ws, rfl, hs⟩ := exists_of_signature hb
  obtain ⟨sh, hread, -⟩ := signature_of_valid hs (i + 1 + 1 + path.length)
    (latest (some name.lexeme) (lexemes path))
  rw [lexemes_append, past, hread] at hb
  cases hb
  obtain ⟨c, hc, -⟩ := bind_ok h
  obtain ⟨body, rest, rfl, hbody⟩ := exists_of_body hc
  rw [lexemes_append] at hs
  have hne : lexemes body.words ≠ [] := by simpa [lexemes] using body.words_ne_nil
  have hnil : s.Valid (lexemes body.words ++ []) := hs.of_append hne
  exact ⟨⟨keyword, name, path, s, body⟩, rest, by simp [Function.words], hkeyword, hname, hpath, hp,
    by simpa using hnil, hbody⟩

end Cursor

end BalMediation
