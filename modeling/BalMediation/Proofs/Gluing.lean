import BalMediation.Proofs.Lookahead
import BalMediation.Proofs.Nesting

/-!
# Gluing

What a backslash protects may be a blank, so an identifier can end in one, and then nothing
separates it from what follows: it goes on with letters, numerals and further escapes there. The
lexemes that it swallows or cuts are identifiers, numbers and numerals, never brackets, so what is
read still nests (`exists_glued`).
-/

namespace BalMediation.Lexer

/-! ## Identifiers -/

/-- An identifier that is read to its end leaves the rest to be read on. -/
theorem identLength_append_of_eq : ∀ {u : Text} (t : Text), identLength u = u.length →
    identLength (u ++ t) = u.length + identLength t
  | [], t, _ => by simp
  | [c], t, h => by
    by_cases hc : c = '\\'
    · simp [identLength, hc] at h
    · rw [identLength_cons hc] at h
      rw [List.singleton_append, identLength_cons hc]
      split_ifs at h ⊢
      simp only [List.length_singleton]
      omega
  | c :: d :: u, t, h => by
    by_cases hc : c = '\\'
    · simp only [identLength, hc, if_true, List.length_cons] at h
      have ih := identLength_append_of_eq t (show identLength u = u.length by omega)
      simp only [List.cons_append, identLength, hc, if_true, List.length_cons, ih]
      omega
    · rw [identLength_cons hc] at h
      split_ifs at h with hp
      have hlen : (c :: d :: u).length = (d :: u).length + 1 := List.length_cons
      have ih := identLength_append_of_eq t (show identLength (d :: u) = (d :: u).length by omega)
      rw [List.cons_append, identLength_cons hc, if_pos hp, ih]
      omega

theorem isIdentPart_of_isIdentStart {c : Char} (hq : c ≠ '\'') (he : c ≠ '\\')
    (h : isIdentStart c = true) : isIdentPart c = true := by
  have hl : Text.isLetter c = true ∨ c = '_' := by simpa [isIdentStart, hq, he] using h
  rcases hl with hl | hl <;> simp [isIdentPart, hl]

/-- An identifier without a quote in front goes on with another. -/
theorem identLength_of_next {c : Char} {u : Text} (h : next c u = .ok (.ident, u.length))
    (hc : c ≠ '\'') : identLength (c :: u) = (c :: u).length := by
  cases next_iff.1 h with
  | quoted => exact absurd rfl hc
  | escaped hu hlen =>
    subst hu
    simp only [List.length_cons] at hlen
    simp only [identLength, if_true, List.length_cons]
    omega
  | ident hq he hi hd hlen =>
    rw [identLength_cons he, if_pos (isIdentPart_of_isIdentStart hq he hi), hlen,
      List.length_cons]

theorem next_glued {c : Char} {u b : Text} (h : next c u = .ok (.ident, u.length))
    (hb : identLength b = b.length) : next c (u ++ b) = .ok (.ident, (u ++ b).length) := by
  have happend : ∀ v : Text, identLength v = v.length →
      identLength (v ++ b) = (v ++ b).length := by
    intro v hv
    rw [identLength_append_of_eq b hv, hb, List.length_append]
  rw [next_iff] at h ⊢
  cases h with
  | quoted hn hlen =>
    refine .quoted ?_ (happend _ hlen)
    rw [List.length_append]
    omega
  | escaped hu hlen =>
    subst hu
    exact .escaped rfl (congrArg (· + 1) (happend _ (Nat.succ.inj hlen)))
  | ident hq he hi hd hlen => exact .ident hq he hi hd (happend _ hlen)

theorem ident_ne_slash {a t : Text} (h : Reads ⟨.ident, a⟩ t) : a.head? ≠ some '/' := by
  obtain ⟨c, u, rfl, -, -, hn⟩ := h
  rintro ⟨⟩
  cases next_iff.1 hn with
  | ident _ _ hi => exact absurd hi (by decide)

/-- Two texts of identifiers make one. -/
theorem Reads.glued {a b : Text} (h : Reads ⟨.ident, a⟩ []) (hb : identLength b = b.length) :
    Reads ⟨.ident, a ++ b⟩ [] := by
  have hslash := ident_ne_slash h
  obtain ⟨c, u, rfl, hs, hc, hn⟩ := h
  rw [List.append_nil] at hc hn
  refine ⟨c, u ++ b, rfl, hs, ?_, ?_⟩
  · rw [List.append_nil, startsComment_cons_append]
    exact ⟨hc, fun h => hslash (by simp [h.1])⟩
  · rw [List.append_nil]
    exact next_glued hn hb

theorem Reads.ident_of {a t : Text} (h : Reads ⟨.ident, a⟩ []) (ht : identLength t = 0) :
    Reads ⟨.ident, a⟩ t := by
  refine reads_iff.2 ⟨h, ht, fun hs => ident_ne_slash h ?_⟩
  rw [show a = ['/'] from hs.1]
  rfl

/-! ## What an identifier runs into -/

theorem Gap.head {c : Char} {g : Text} (h : Gap (c :: g)) :
    isSpace c = true ∨ c = '#' ∨ c = '/' := by
  generalize hs : c :: g = s at h
  cases h with
  | nil => cases hs
  | space hc _ =>
    cases hs
    exact .inl hc
  | @comment u g' hu _ =>
    obtain ⟨hu, -⟩ := hu
    unfold startsComment at hu
    split at hu
    · cases hs
      exact .inr (.inl rfl)
    · cases hs
      exact .inr (.inr rfl)
    · cases hu

/-- No identifier goes on in a gap, and what looks ahead sees no further. -/
theorem Gap.head_not_ident {c : Char} {g : Text} (h : Gap (c :: g)) :
    isIdentPart c = false ∧ c ≠ '\\' ∧ c ≠ '.' := by
  rcases h.head with hc | rfl | rfl
  · obtain ⟨hp, he⟩ := isIdentPart_of_isSpace hc
    refine ⟨hp, he, ?_⟩
    rintro rfl
    exact absurd hc (by decide)
  · exact ⟨by decide, by decide, by decide⟩
  · exact ⟨by decide, by decide, by decide⟩

theorem identLength_gap {g : Text} (h : Gap g) (hg : g ≠ []) (t : Text) :
    identLength (g ++ t) = 0 := by
  obtain ⟨c, g, rfl⟩ := List.exists_cons_of_ne_nil hg
  exact identLength_eq_zero h.head_not_ident.1 h.head_not_ident.2.1 _

/-- No identifier goes on with a gap and a character of another kind. -/
theorem Gap.identLength_append {g : Text} (h : Gap g) {c : Char} (hp : isIdentPart c = false)
    (he : c ≠ '\\') (t : Text) : identLength (g ++ c :: t) = 0 := by
  cases g with
  | nil => exact identLength_eq_zero hp he t
  | cons d g => exact identLength_gap h (by simp) _

theorem ahead_gap {g : Text} (h : Gap g) (hg : g ≠ []) (t : Text) : ahead (g ++ t) = ahead g := by
  obtain ⟨c, g, rfl⟩ := List.exists_cons_of_ne_nil hg
  obtain ⟨-, he, hp⟩ := h.head_not_ident
  refine ahead_append (by simp) ?_ ?_ t
  · rintro ⟨⟩
    exact hp rfl
  · rintro ⟨⟩
    exact he rfl

theorem numberLength_of_append {u v : Text} (h : numberLength (u ++ v) = (u ++ v).length) :
    numberLength v = v.length := by
  induction u with
  | nil => exact h
  | cons c u ih =>
    rw [List.cons_append, numberLength] at h
    split_ifs at h
    exact ih (by simpa using h)

/-- A number is digits, letters and numerals up to its end, or up to a point with a digit behind
it. -/
theorem number_split {u : Text} (h : numberLength u = u.length) :
    ∃ p q, u = p ++ q ∧ identLength p = p.length
      ∧ (q = [] ∨ ∃ d v, q = '.' :: d :: v ∧ Text.isDigit d = true) := by
  induction u with
  | nil => exact ⟨[], [], rfl, rfl, .inl rfl⟩
  | cons c u ih =>
    rw [numberLength] at h
    split_ifs at h with hc
    have hu : numberLength u = u.length := by simpa using h
    by_cases hp : isIdentPart c = true
    · have he : c ≠ '\\' := by
        rintro rfl
        exact absurd hp (by decide)
      obtain ⟨p, q, rfl, hpl, hq⟩ := ih hu
      refine ⟨c :: p, q, rfl, ?_, hq⟩
      rw [identLength_cons he, if_pos hp, hpl, List.length_cons]
    · have hd : c = '.' ∧ startsDigit u = true := by simpa [hp] using hc
      obtain ⟨rfl, hd⟩ := hd
      cases u with
      | nil => cases hd
      | cons d v => exact ⟨[], '.' :: d :: v, rfl, rfl, .inr ⟨d, v, rfl, hd⟩⟩

theorem reads_point {d : Char} (hd : Text.isDigit d = true) (t : Text) :
    Reads ⟨.op, ['.']⟩ (d :: t) := by
  have hne : d ≠ '.' := by
    rintro rfl
    exact absurd hd (by decide)
  refine ⟨'.', [], rfl, rfl, rfl, ?_⟩
  refine (next_op (by decide) (by decide) (by decide) (by decide)).2 ⟨rfl, ?_⟩
  refine operatorLength_eq_zero fun op hop hp => ?_
  simp only [operators, List.map_cons, List.map_nil, List.mem_cons, List.not_mem_nil,
    or_false] at hop
  rcases hop with rfl | rfl | rfl | rfl | rfl | rfl | rfl | rfl | rfl | rfl | rfl <;>
    simp [List.cons_prefix_cons] at hp
  exact hne hp.1.symm

theorem reads_number {d : Char} {v t : Text} (hd : Text.isDigit d = true)
    (hv : numberLength v = v.length) (ht : numberLength t = 0) : Reads ⟨.number, d :: v⟩ t := by
  refine ⟨d, v, rfl, ?_, ?_, (next_number hd).2 ⟨rfl, numberLength_append.2 ⟨hv, ht⟩⟩⟩
  · by_contra hs
    rw [Bool.not_eq_false] at hs
    have := isIdentPart_of_isDigit hd
    rw [(isIdentPart_of_isSpace hs).1] at this
    cases this
  · unfold startsComment
    split
    · rename_i heq
      rw [(List.cons.inj heq).1] at hd
      exact absurd hd (by decide)
    · rename_i heq
      rw [(List.cons.inj heq).1] at hd
      exact absurd hd (by decide)
    · rfl

/-! ## Lexemes that end in a blank -/

theorem getLast?_string : ∀ {u : Text}, stringLength u = some u.length → u.getLast? = some '"'
  | [], h => by simp [stringLength] at h
  | [c], h => by
    by_cases hc : c = '\\'
    · simp [stringLength, hc] at h
    · rw [stringLength_cons hc] at h
      split_ifs at h with hq
      · simp [hq]
      · simp [stringLength] at h
  | c :: d :: u, h => by
    by_cases hc : c = '\\'
    · simp only [stringLength, hc, if_true] at h
      obtain ⟨n, hn, hlen⟩ := Option.map_eq_some_iff.1 h
      have hu : stringLength u = some u.length := by
        rw [hn]
        simp only [List.length_cons] at hlen
        exact congrArg some (by omega)
      have ih := getLast?_string hu
      cases u with
      | nil => cases ih
      | cons e u => simpa using ih
    · rw [stringLength_cons hc] at h
      split_ifs at h with hq
      · simp at h
      · obtain ⟨n, hn, hlen⟩ := Option.map_eq_some_iff.1 h
        have hu : stringLength (d :: u) = some (d :: u).length := by
          rw [hn]
          simp only [List.length_cons] at hlen ⊢
          exact congrArg some (by omega)
        simpa using getLast?_string hu

theorem getLast?_template {u : Text} (h : templateLength u = some u.length) :
    u.getLast? = some '\x60' := by
  induction u with
  | nil => simp [templateLength] at h
  | cons c u ih =>
    rw [templateLength] at h
    split_ifs at h with hc
    · have hu : u = [] := by simpa using h
      simp [hu, hc]
    · obtain ⟨n, hn, hlen⟩ := Option.map_eq_some_iff.1 h
      have hu : templateLength u = some u.length := by
        rw [hn]
        simp only [List.length_cons] at hlen
        exact congrArg some (by omega)
      have hlast := ih hu
      cases u with
      | nil => cases hlast
      | cons d u => simpa using hlast

theorem not_isSpace_of_numberLength {u : Text} (h : numberLength u = u.length) :
    ∀ c ∈ u, isSpace c = false := by
  induction u with
  | nil => simp
  | cons c u ih =>
    rw [numberLength] at h
    split_ifs at h with hc
    have hspace : isSpace c = false := by
      by_contra hs
      rw [Bool.not_eq_false] at hs
      have hpoint : c = '.' ∧ startsDigit u = true := by
        simpa [(isIdentPart_of_isSpace hs).1] using hc
      rw [hpoint.1] at hs
      exact absurd hs (by decide)
    intro d hd
    rcases List.mem_cons.1 hd with rfl | hd
    · exact hspace
    · exact ih (by simpa using h) d hd

/-- Only an identifier ends in a blank. -/
theorem Reads.ident_of_blank {l : Lexeme} {t : Text} (h : Reads l t) {c : Char}
    (hl : l.text.getLast? = some c) (hc : isSpace c = true) : l.kind = .ident := by
  obtain ⟨kind, text⟩ := l
  obtain ⟨d, u, rfl, hs, -, hn⟩ := h
  obtain ⟨hn, -⟩ := next_append.1 hn
  simp only at hn hl ⊢
  have hlast : ∀ e, u.getLast? = some e → e = c := by
    intro e he
    cases u with
    | nil => cases he
    | cons x u =>
      rw [List.getLast?_cons_cons, he] at hl
      exact Option.some.inj hl
  have hnil : u ≠ [] := by
    rintro rfl
    rw [List.getLast?_singleton] at hl
    cases hl
    rw [hs] at hc
    cases hc
  have hmem : c ∈ u := by
    obtain ⟨v, e, rfl⟩ := (List.eq_nil_or_concat u).resolve_left hnil
    have := hlast e (by simp)
    simp [this]
  cases next_iff.1 hn with
  | string hlen =>
    rw [← hlast _ (getLast?_string hlen)] at hc
    exact absurd hc (by decide)
  | template hlen =>
    rw [← hlast _ (getLast?_template hlen)] at hc
    exact absurd hc (by decide)
  | number hd hlen =>
    rw [not_isSpace_of_numberLength hlen c hmem] at hc
    cases hc
  | quoted => rfl
  | escaped => rfl
  | ident => rfl
  | op h1 h2 hd hi hlen =>
    rw [isSpace_of_mem_operators (mem_operators_of_length hlen hnil)
      (List.mem_cons_of_mem d hmem)] at hc
    cases hc

/-! ## Reading on -/

theorem nested_of_plain {l : Lexeme} {ls : List Lexeme} (ho : l.opens? = none)
    (h : Nested (l :: ls)) : Nested ls := by
  cases h with
  | plain _ _ h => exact h
  | group ho' => simp [ho] at ho'

/-- No operator of several characters begins with a letter or a numeral. -/
theorem operatorLength_of_isIdentPart {c : Char} (h : isIdentPart c = true) (u : Text) :
    operatorLength (c :: u) = 0 := by
  refine operatorLength_eq_zero fun op hop hpre => ?_
  have hall : operators.all (fun o => o.head?.any (!isIdentPart ·)) = true := by decide +kernel
  have hfirst := List.all_eq_true.1 hall op hop
  cases op with
  | nil => cases hfirst
  | cons d r =>
    obtain ⟨rfl, -⟩ := List.cons_prefix_cons.1 hpre
    simp [h] at hfirst

theorem opens?_of_isIdentPart {c : Char} (h : isIdentPart c = true) :
    (Lexeme.mk .op [c]).opens? = none := by
  refine Option.eq_none_iff_forall_ne_some.2 fun b hb => ?_
  have hb := (Lexeme.opens?_eq_some.1 hb).2
  cases b <;> cases hb <;> exact absurd h (by decide)

/-- What an identifier runs into is an identifier, a number, or an operator that is a numeral. -/
theorem swallowed {l : Lexeme} {t : Text} (hr : Reads l t) (h : identLength (l.text ++ t) ≠ 0) :
    (l.kind = .ident ∧ identLength l.text = l.text.length)
      ∨ (l.kind = .number ∧ numberLength l.text = l.text.length)
      ∨ (l.opens? = none ∧ identLength l.text = l.text.length) := by
  obtain ⟨kind, text⟩ := l
  obtain ⟨c, u, rfl, hs, -, hn⟩ := hr
  obtain ⟨hn, -⟩ := next_append.1 hn
  simp only at hn h ⊢
  have hc : isIdentPart c = false → c = '\\' := by
    intro hp
    by_contra he
    exact h (identLength_eq_zero hp he _)
  cases next_iff.1 hn with
  | string => exact absurd (hc (by decide)) (by decide)
  | template => exact absurd (hc (by decide)) (by decide)
  | number hd hlen =>
    refine .inr (.inl ⟨rfl, ?_⟩)
    rw [numberLength, if_pos (by simp [isIdentPart_of_isDigit hd]), hlen, List.length_cons]
  | quoted => exact absurd (hc (by decide)) (by decide)
  | escaped => exact .inl ⟨rfl, identLength_of_next hn (by decide)⟩
  | ident hq => exact .inl ⟨rfl, identLength_of_next hn hq⟩
  | op h1 h2 hd hi hlen =>
    have he : c ≠ '\\' := by
      rintro rfl
      exact absurd hi (by decide)
    have hp : isIdentPart c = true := by
      by_contra hp
      exact he (hc (by simpa using hp))
    obtain rfl : u = [] :=
      List.eq_nil_of_length_eq_zero (hlen.symm.trans (operatorLength_of_isIdentPart hp u))
    exact .inr (.inr ⟨opens?_of_isIdentPart hp, by simp [identLength, hp, he]⟩)

/-- An identifier in front of words makes one word with the first letters and numerals of them, and
what is read then still nests. -/
theorem exists_glued {ws : List Word} {t : Text} (hl : Legible ws t) (hn : Nested (lexemes ws))
    (ht : identLength t = 0) {a : Text} (ha : Reads ⟨.ident, a⟩ []) :
    ∃ rs, a ++ spell ws = spell rs ∧ Legible rs t ∧ Nested (lexemes rs) := by
  have hplain : ∀ s : Text,
      (Lexeme.mk .ident s).opens? = none ∧ (Lexeme.mk .ident s).closes? = none :=
    fun s => plain_of_kind (by simp)
  induction ws generalizing a with
  | nil =>
    refine ⟨[⟨[], ⟨.ident, a⟩⟩], by simp, ⟨.nil, ha.ident_of ht, trivial⟩, ?_⟩
    exact .plain (hplain a).1 (hplain a).2 .nil
  | cons w ws ih =>
    obtain ⟨hg, hr, hws⟩ := hl
    by_cases h0 : identLength (spell (w :: ws) ++ t) = 0
    · refine ⟨⟨[], ⟨.ident, a⟩⟩ :: w :: ws, by simp, ⟨.nil, ha.ident_of h0, hg, hr, hws⟩, ?_⟩
      exact .plain (hplain a).1 (hplain a).2 hn
    have hgap : w.gap = [] := by
      by_contra hne
      rw [spell_cons, List.append_assoc, List.append_assoc] at h0
      exact h0 (identLength_gap hg hne _)
    have hspell : spell (w :: ws) = w.lexeme.text ++ spell ws := by simp [hgap]
    rw [hspell, List.append_assoc] at h0
    have hend := (reads_iff.1 hr).2.1
    unfold Ends at hend
    rw [hspell, ← List.append_assoc]
    rcases swallowed hr h0 with ⟨hk, hid⟩ | ⟨hk, hnum⟩ | ⟨ho, hid⟩
    · rw [hk] at hend
      refine ⟨⟨[], ⟨.ident, a ++ w.lexeme.text⟩⟩ :: ws, by simp,
        ⟨.nil, (ha.glued hid).ident_of hend, hws⟩, ?_⟩
      exact .plain (hplain _).1 (hplain _).2
        (nested_of_plain (plain_of_kind (by simp [hk])).1 hn)
    · have hrest : Nested (lexemes ws) := nested_of_plain (plain_of_kind (by simp [hk])).1 hn
      obtain ⟨p, q, hpq, hp, rfl | ⟨d, v, rfl, hd⟩⟩ := number_split hnum
      · rw [List.append_nil] at hpq
        rw [hpq]
        exact ih hws hrest (ha.glued hp)
      · rw [hk] at hend
        rw [hpq] at hnum
        have hv : numberLength v = v.length :=
          numberLength_of_append (u := p ++ ['.', d]) (by simpa using hnum)
        refine ⟨⟨[], ⟨.ident, a ++ p⟩⟩ :: ⟨[], ⟨.op, ['.']⟩⟩ :: ⟨[], ⟨.number, d :: v⟩⟩ :: ws,
          by simp [hpq], ⟨.nil, (ha.glued hp).ident_of ?_, .nil, ?_, .nil,
            reads_number hd hv hend, hws⟩, ?_⟩
        · exact identLength_eq_zero (by decide) (by decide) _
        · exact reads_point hd _
        · exact .plain (hplain _).1 (hplain _).2 (.plain (by decide) (by decide)
            (.plain (plain_of_kind (by simp)).1 (plain_of_kind (by simp)).2 hrest))
    · exact ih hws (nested_of_plain ho hn) (ha.glued hid)

end BalMediation.Lexer
