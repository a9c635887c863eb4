import BalMediation.Proofs.Balance
import BalMediation.Proofs.Seams

/-!
# Unfinished members

A document is read only with the boilerplate behind it. A text that has no tree of its own is
therefore refused, except that the boilerplate can finish its last member: then one member begins in
the text and ends in the boilerplate, and it is no service (`refused_iff`). An import without its
semicolon is such a text (`patch_unfinished_import`).

No service ends in the boilerplate because the one brace that closes there stands right behind the
brace that opens it, and a semicolon before that (`Service.Valid.not_braced`). The lexeme at the end
of the text can take a part of the boilerplate along, if a backslash ends the text; what is left of
the boilerplate is then one of its `remainders`.
-/

namespace BalMediation

open Branch Lexer Phrase Cursor

/-! ## Lexemes that hold a newline -/

namespace Lexer

theorem stringLength_newline (r : Text) : stringLength ('\n' :: r) = none := by
  rw [stringLength_cons (by decide)]
  simp

theorem stringLength_of_newline : ∀ {u r : Text} {n : Nat},
    stringLength (u ++ '\n' :: r) = some n → u.length < n →
      ∃ k, stringLength r = some k ∧ n = u.length + 1 + k
  | [], r, n, h, _ => by
    rw [List.nil_append, stringLength_newline] at h
    cases h
  | [c], r, n, h, hn => by
    by_cases hc : c = '\\'
    · subst hc
      simp only [List.singleton_append, stringLength, if_true] at h
      obtain ⟨k, hk, rfl⟩ := Option.map_eq_some_iff.1 h
      exact ⟨k, hk, by simp only [List.length_singleton]; omega⟩
    · rw [List.singleton_append, stringLength_cons hc, stringLength_newline] at h
      split_ifs at h with hq
      · cases h
        simp at hn
      · cases h
  | c :: d :: u, r, n, h, hn => by
    by_cases hc : c = '\\'
    · subst hc
      simp only [List.cons_append, stringLength, if_true] at h
      obtain ⟨m, hm, rfl⟩ := Option.map_eq_some_iff.1 h
      simp only [List.length_cons] at hn
      obtain ⟨k, hk, rfl⟩ := stringLength_of_newline hm (by omega)
      exact ⟨k, hk, by simp only [List.length_cons]; omega⟩
    · rw [List.cons_append, stringLength_cons hc] at h
      split_ifs at h with hq hl
      · cases h
        simp at hn
      · obtain ⟨m, hm, rfl⟩ := Option.map_eq_some_iff.1 h
        obtain ⟨k, hk, rfl⟩ := stringLength_of_newline (u := d :: u) hm (by
          simp only [List.length_cons] at hn ⊢
          omega)
        exact ⟨k, hk, by simp only [List.length_cons]; omega⟩

theorem templateLength_of_append {u v : Text} {n : Nat} (h : templateLength (u ++ v) = some n)
    (hn : u.length < n) : ∃ k, templateLength v = some k ∧ n = u.length + k := by
  induction u generalizing n with
  | nil => exact ⟨n, h, by simp⟩
  | cons c u ih =>
    rw [List.cons_append, templateLength] at h
    split_ifs at h with hq
    · cases h
      simp at hn
    · obtain ⟨m, hm, rfl⟩ := Option.map_eq_some_iff.1 h
      obtain ⟨k, hk, rfl⟩ := ih hm (by simp only [List.length_cons] at hn; omega)
      exact ⟨k, hk, by simp only [List.length_cons]; omega⟩

theorem identLength_of_newline : ∀ {u r : Text}, u.length < identLength (u ++ '\n' :: r) →
    identLength (u ++ '\n' :: r) = u.length + 1 + identLength r
  | [], r, h => by
    rw [List.nil_append, identLength_space (by decide)] at h
    cases h
  | [c], r, h => by
    by_cases hc : c = '\\'
    · subst hc
      simp only [List.singleton_append, identLength, if_true, List.length_singleton]
      omega
    · rw [List.singleton_append, identLength_cons hc, identLength_space (by decide)] at h
      split_ifs at h <;> simp at h
  | c :: d :: u, r, h => by
    by_cases hc : c = '\\'
    · subst hc
      simp only [List.cons_append, identLength, if_true, List.length_cons] at h ⊢
      rw [identLength_of_newline (by omega)]
      omega
    · rw [List.cons_append, identLength_cons hc] at h ⊢
      split_ifs at h ⊢ with hp
      · simp only [List.length_cons] at h
        rw [identLength_of_newline (u := d :: u) (by simp only [List.length_cons]; omega)]
        simp only [List.length_cons]
        omega
      · cases h

theorem numberLength_newline_le (u r : Text) : numberLength (u ++ '\n' :: r) ≤ u.length := by
  induction u with
  | nil =>
    have hpart : isIdentPart '\n' = false := by decide
    simp [numberLength, hpart]
  | cons c u ih =>
    rw [List.cons_append, numberLength, List.length_cons]
    split_ifs <;> omega

theorem operatorLength_newline_le (c : Char) (u r : Text) :
    operatorLength (c :: (u ++ '\n' :: r)) ≤ u.length := by
  unfold operatorLength
  split
  · rename_i op hop
    have hmem := List.mem_of_find?_eq_some hop
    have hp := List.find?_some hop
    rw [List.isPrefixOf_iff_prefix] at hp
    have hnot : '\n' ∉ op := fun hin => by
      have := isSpace_of_mem_operators hmem hin
      simp [isSpace] at this
    have hle := (prefix_of_not_mem (s := c :: u) hnot hp).length_le
    simp only [List.length_cons] at hle
    omega
  · exact Nat.zero_le _

/-- A token that goes on behind a newline is no operator, and goes on there as if it began in front
of the newline. -/
theorem next_of_newline {c : Char} {u r : Text} {kind : TokenKind} {n : Nat}
    (h : next c (u ++ '\n' :: r) = .ok (kind, n)) (hn : u.length < n) :
    kind ≠ .op ∧ ∃ k, n = u.length + 1 + k
      ∧ (stringLength r = some k ∨ templateLength r = some k ∨ identLength r = k) := by
  cases next_iff.1 h with
  | string hlen =>
    obtain ⟨k, hk, rfl⟩ := stringLength_of_newline hlen hn
    exact ⟨by simp, k, rfl, .inl hk⟩
  | template hlen =>
    obtain ⟨m, hm, rfl⟩ := templateLength_of_append hlen hn
    rw [templateLength, if_neg (by decide)] at hm
    obtain ⟨k, hk, rfl⟩ := Option.map_eq_some_iff.1 hm
    exact ⟨by simp, k, by omega, .inr (.inl hk)⟩
  | number _ hlen =>
    have := numberLength_newline_le u r
    omega
  | quoted _ hlen =>
    subst hlen
    exact ⟨by simp, _, identLength_of_newline hn, .inr (.inr rfl)⟩
  | escaped ht hlen =>
    refine ⟨by simp, identLength r, ?_, .inr (.inr rfl)⟩
    cases u with
    | nil =>
      obtain ⟨rfl, rfl⟩ := List.cons.inj ht
      simp only [List.length_nil]
      omega
    | cons d u =>
      rw [List.cons_append] at ht
      obtain ⟨rfl, rfl⟩ := List.cons.inj ht
      simp only [List.length_cons] at hn ⊢
      have := identLength_of_newline (u := u) (r := r) (by omega)
      omega
  | ident _ _ _ _ hlen =>
    subst hlen
    exact ⟨by simp, _, identLength_of_newline hn, .inr (.inr rfl)⟩
  | op _ _ _ _ hlen =>
    have := operatorLength_newline_le c u r
    omega

end Lexer

/-! ## Words around a newline -/

/-- What may be left of a text when a lexeme that holds the newline in front of it has been read. -/
def remainders (r : Text) : List Text :=
  r.drop (identLength r) :: ((stringLength r).toList ++ (templateLength r).toList).map r.drop

/-- Where a newline comes among words: in a gap, behind the front part `g` of it, or in the last of
the words in front. -/
inductive Parted (source r tail : Text) (front back : List Word) : Prop
  | gap (g : Text) : source = spell front ++ g → spell back ++ tail = g ++ '\n' :: r →
      g.length ≤ (gapBefore tail back).length → Parted source r tail front back
  | word (init : List Word) (w : Word) : front = init ++ [w] → w.lexeme.kind ≠ .op →
      (spell init).length ≤ source.length → spell back ++ tail ∈ remainders r →
      Parted source r tail front back

namespace Parted

variable {source r tail : Text} {front back : List Word}

theorem cons (w : Word) (h : Parted source r tail front back) :
    Parted (w.gap ++ (w.lexeme.text ++ source)) r tail (w :: front) back := by
  cases h with
  | gap g hs hb hle => exact .gap g (by simp [hs]) hb hle
  | word init v hf hk hle hb =>
    refine .word (w :: init) v (by simp [hf]) hk ?_ hb
    simp only [spell_cons, List.length_append]
    omega

/-- A lexeme that begins before the newline and ends behind it. -/
theorem of_reads {w : Word} {ws : List Word} {x y : Text}
    (h : Reads w.lexeme (spell ws ++ tail)) (hw : w.lexeme.text = x ++ y) (hx : x ≠ [])
    (hy : y ≠ []) (hr : y ++ (spell ws ++ tail) = '\n' :: r) :
    Parted (w.gap ++ x) r tail [w] ws := by
  obtain ⟨c, u, hu, -, -, hnext⟩ := h
  obtain ⟨d, x, rfl⟩ := List.exists_cons_of_ne_nil hx
  obtain ⟨e, y, rfl⟩ := List.exists_cons_of_ne_nil hy
  rw [List.cons_append] at hr
  rw [List.cons_append] at hw
  obtain ⟨rfl, hbehind⟩ := List.cons.inj hr
  obtain ⟨rfl, rfl⟩ := List.cons.inj (hu.symm.trans hw)
  rw [List.append_assoc, List.cons_append, hbehind] at hnext
  obtain ⟨hk, k, hlen, hcases⟩ := next_of_newline hnext (by simp)
  obtain rfl : k = y.length := by
    simp only [List.length_append, List.length_cons] at hlen
    omega
  have hdrop : spell ws ++ tail = r.drop y.length := by
    rw [← hbehind, List.drop_left]
  refine .word [] w rfl hk (by simp) ?_
  rw [hdrop, remainders]
  rcases hcases with hk | hk | hk
  · simp [hk]
  · simp [hk]
  · simp [hk]

end Parted

theorem Lexer.Legible.exists_parted {ws : List Word} {source r tail : Text} (hl : Legible ws tail)
    (hs : spell ws ++ tail = source ++ '\n' :: r) :
    ∃ front back, ws = front ++ back ∧ Parted source r tail front back := by
  induction ws generalizing source with
  | nil =>
    have hlen := congrArg List.length hs
    simp only [spell_nil, List.nil_append, List.length_append] at hlen
    exact ⟨[], [], rfl, .gap source rfl hs (by rw [gapBefore_nil]; omega)⟩
  | cons w ws ih =>
    obtain ⟨-, hreads, hl⟩ := hl
    by_cases hle : source.length ≤ w.gap.length
    · exact ⟨[], w :: ws, rfl, .gap source rfl hs hle⟩
    · rw [spell_cons, List.append_assoc, List.append_assoc] at hs
      obtain ⟨x, rfl, hrest⟩ := exists_eq_append hs (by omega)
      rw [List.length_append] at hle
      by_cases hlen : w.lexeme.text.length ≤ x.length
      · obtain ⟨a, rfl, ha⟩ := exists_eq_append hrest hlen
        obtain ⟨front, back, rfl, hparted⟩ := ih hl ha
        exact ⟨w :: front, back, rfl, hparted.cons w⟩
      · obtain ⟨y, hw, hy⟩ := exists_eq_append hrest.symm (by omega)
        have hx : x ≠ [] := by
          rintro rfl
          simp at hle
        have hynil : y ≠ [] := by
          rintro rfl
          simp [hw] at hlen
        exact ⟨[w], ws, rfl, .of_reads hreads hw hx hynil hy.symm⟩

/-! ## Lexemes in which no service ends -/

/-- Whether a semicolon stands among lexemes with no closing bracket behind it. -/
def Loose (ls : List Lexeme) : Prop :=
  ∃ as l bs, ls = as ++ l :: bs ∧ l.isOp [';'] = true ∧ ∀ x ∈ bs, x.closes? = none

theorem Loose.append {ls : List Lexeme} (h : Loose ls) (as : List Lexeme) : Loose (as ++ ls) := by
  obtain ⟨bs, l, cs, rfl, hl, hcs⟩ := h
  exact ⟨as ++ bs, l, cs, by simp, hl, hcs⟩

theorem Loose.of_append {as bs : List Lexeme} (h : Loose (as ++ bs))
    (has : ∀ l ∈ as, l.isOp [';'] = false) : Loose bs := by
  induction as with
  | nil => exact h
  | cons a as ih =>
    obtain ⟨front, l, back, hsplit, hl, hback⟩ := h
    cases front with
    | nil =>
      obtain ⟨rfl, -⟩ := List.cons.inj hsplit
      rw [has a List.mem_cons_self] at hl
      cases hl
    | cons x front =>
      refine ih ⟨front, l, back, (List.cons.inj hsplit).2, hl, hback⟩ fun m hm => ?_
      exact has m (List.mem_cons_of_mem _ hm)

/-- Whether every closing brace comes right behind an opening one with a loose semicolon in front.
`loose` says if there is such a semicolon before the lexemes, `opened` if such a brace is. -/
def braced (loose opened : Bool) : List Lexeme → Bool
  | [] => true
  | l :: ls =>
    if l.isOp ['\x7d'] then opened && braced false false ls
    else if l.isOp ['\x7b'] then braced loose loose ls
    else if l.isOp [';'] then braced true false ls
    else braced (loose && l.closes?.isNone) false ls

theorem loose_of_braced {as bs : List Lexeme} {l : Lexeme} {loose opened : Bool}
    (h : braced loose opened (as ++ l :: bs) = true) (hl : l.isOp ['\x7d'] = true) :
    as = [] ∧ opened = true
      ∨ ∃ init o, as = init ++ [o] ∧ o.isOp ['\x7b'] = true
        ∧ (loose = true ∧ (∀ x ∈ init, x.closes? = none) ∨ Loose init) := by
  induction as generalizing loose opened with
  | nil =>
    rw [List.nil_append, braced, if_pos hl, Bool.and_eq_true] at h
    exact .inl ⟨rfl, h.1⟩
  | cons a as ih =>
    right
    rw [List.cons_append, braced] at h
    split_ifs at h with hclose hopen hsemicolon
    · rw [Bool.and_eq_true] at h
      rcases ih h.2 with ⟨-, hfalse⟩ | ⟨init, o, rfl, ho, ⟨hfalse, -⟩ | hloose⟩
      · cases hfalse
      · cases hfalse
      · exact ⟨a :: init, o, rfl, ho, .inr (hloose.append [a])⟩
    · have ha : a.closes? = none :=
        Lexeme.closes?_of_opens? (Lexeme.opens?_of_isOp (b := .brace) hopen)
      rcases ih h with ⟨rfl, hguard⟩ | ⟨init, o, rfl, ho, ⟨hguard, hinit⟩ | hloose⟩
      · exact ⟨[], a, rfl, hopen, .inl ⟨hguard, by simp⟩⟩
      · exact ⟨a :: init, o, rfl, ho, .inl ⟨hguard, by simpa [ha] using hinit⟩⟩
      · exact ⟨a :: init, o, rfl, ho, .inr (hloose.append [a])⟩
    · rcases ih h with ⟨-, hfalse⟩ | ⟨init, o, rfl, ho, ⟨-, hinit⟩ | hloose⟩
      · cases hfalse
      · exact ⟨a :: init, o, rfl, ho, .inr ⟨[], a, init, rfl, hsemicolon, hinit⟩⟩
      · exact ⟨a :: init, o, rfl, ho, .inr (hloose.append [a])⟩
    · rcases ih h with ⟨-, hfalse⟩ | ⟨init, o, rfl, ho, ⟨hguard, hinit⟩ | hloose⟩
      · cases hfalse
      · rw [Bool.and_eq_true, Option.isNone_iff_eq_none] at hguard
        exact ⟨a :: init, o, rfl, ho, .inl ⟨hguard.1, by simpa [hguard.2] using hinit⟩⟩
      · exact ⟨a :: init, o, rfl, ho, .inr (hloose.append [a])⟩

theorem Nested.opens?_last {ls : List Lexeme} {l : Lexeme} (h : Nested (ls ++ [l])) :
    l.opens? = none := by
  rw [nested_iff_pending, pending_append] at h
  obtain ⟨opened, -, hl⟩ := Option.bind_eq_some_iff.1 h
  refine Option.eq_none_iff_forall_ne_some.2 fun b hb => ?_
  rw [pending_opens hb, pending] at hl
  cases hl

/-- Words that end with nested ones end with no opening bracket. -/
theorem opens?_last_of_nested {as bs init : List Word} {w : Word} (h : Nested (lexemes bs))
    (hbs : bs ≠ []) (heq : as ++ bs = init ++ [w]) : w.lexeme.opens? = none := by
  obtain ⟨cs, v, rfl⟩ := List.eq_nil_or_concat bs |>.resolve_left hbs
  rw [List.concat_eq_append, ← List.append_assoc] at heq
  obtain rfl : v = w := by simpa using (List.append_inj' heq rfl).2
  rw [List.concat_eq_append, lexemes_append] at h
  exact h.opens?_last

namespace Phrase

theorem opens?_last_of_allValid {p : Option Lexeme} {items : List (Item ServiceMember)}
    {rest : List Lexeme} (h : serviceGrammar.AllValid p items rest) {init : List Word} {w : Word}
    (hw : serviceGrammar.words items = init ++ [w]) : w.lexeme.opens? = none := by
  rcases List.eq_nil_or_concat items with rfl | ⟨front, item, rfl⟩
  · simp at hw
  · rw [List.concat_eq_append, Grammar.allValid_append] at h
    have hwords : serviceGrammar.words (front ++ [item])
        = serviceGrammar.words front ++ serviceGrammar.words [item] := by
      simp [Grammar.words]
    rw [List.concat_eq_append, hwords] at hw
    cases item with
    | semicolon v =>
      rw [Grammar.words_semicolon, Grammar.words_nil] at hw
      have hv : Nested (lexemes [v]) := nested_semicolon h.2.1
      exact opens?_last_of_nested hv (by simp) hw
    | member m =>
      rw [Grammar.words_member, Grammar.words_nil, List.append_nil] at hw
      cases m with
      | function d =>
        have hd : d.Valid memberQualifiers d.leading.memberKind := h.2.2.1
        rw [serviceGrammar_function, Definition.words_branch, d.words_eq, ← List.append_assoc,
          ← List.append_assoc] at hw
        exact opens?_last_of_nested (Body.Valid.nested hd.function.body)
          d.function.body.words_ne_nil hw
      | other o =>
        have ho : o.Valid memberQualifiers _ _ := h.2.2.1.1
        rw [serviceGrammar_other, Other.words_branch] at hw
        refine opens?_last_of_nested ho.nested (fun hnil => o.core_ne_nil ?_) hw
        rw [(List.append_eq_nil_iff.1 hnil).2]
        rfl

/-- A listener holds a semicolon only in brackets. -/
theorem not_loose_of_listenerRule {p : Option Lexeme} {ls : List Lexeme}
    (h : Passes listenerRule p ls) : ¬ Loose ls := by
  have hstop : ∀ (q : Option Lexeme) (l : Lexeme), l.isOp [';'] = true →
      listenerRule q l = .stop := by
    intro q l hl
    simp [listenerRule, hl]
  have hclose : ∀ l : Lexeme, l.isOp [';'] = true → l.closes? = none :=
    fun _ hl => (plain_of_semicolon hl).2
  rintro ⟨as, l, bs, hls, hl, hbs⟩
  induction h generalizing as with
  | nil => simp at hls
  | @pass p m ls hm _ ih =>
    cases as with
    | nil =>
      obtain ⟨rfl, -⟩ := List.cons.inj hls
      rw [hstop p m hl] at hm
      cases hm
    | cons a as => exact ih as (List.cons.inj hls).2
  | @group p b m close inner ls hm _ hc _ ih =>
    cases as with
    | nil =>
      obtain ⟨rfl, -⟩ := List.cons.inj hls
      rw [hstop p m hl] at hm
      cases hm
    | cons a as =>
      rcases List.append_eq_append_iff.1 (List.cons.inj hls).2 with ⟨x, rfl, hx⟩ | ⟨x, -, hx⟩
      · cases x with
        | nil =>
          obtain ⟨rfl, -⟩ := List.cons.inj hx
          rw [hclose close hl] at hc
          cases hc
        | cons y x => exact ih x (List.cons.inj hx).2
      · have hmem : close ∈ l :: bs := by simp [hx]
        have hnone : close.closes? = none := by
          rcases List.mem_cons.1 hmem with rfl | hmem
          · exact hclose close hl
          · exact hbs close hmem
        rw [hnone] at hc
        cases hc

/-- In front of its body a service holds a semicolon only in brackets. -/
theorem Service.Valid.not_loose {s : Service} {rest : List Lexeme} (h : s.Valid rest) :
    ¬ Loose (lexemes (s.attach ++ s.on :: s.listener)) := by
  intro hloose
  have hattach : ∀ l ∈ lexemes s.attach ++ [s.on.lexeme], l.isOp [';'] = false := by
    intro l hl
    rcases List.mem_append.1 hl with hl | hl
    · obtain ⟨q, hq⟩ := h.attach.forall_pass (by
        intro q l b
        unfold attachRule
        split_ifs <;> simp) l hl
      unfold attachRule at hq
      split_ifs at hq with hstop
      simp only [Bool.or_eq_true, not_or] at hstop
      simpa using hstop.2
    · rw [List.mem_singleton.1 hl]
      exact Lexeme.isOp_of_ident (Lexeme.kind_of_isWord h.on) _
  rw [lexemes_append, lexemes_cons, ← List.singleton_append, ← List.append_assoc] at hloose
  exact not_loose_of_listenerRule h.listener (hloose.of_append hattach)

/-- Words at the end of a service that begin with no semicolon begin in front of its closing
brace. -/
theorem Service.Valid.exists_foot {s : Service} {rest ls : List Lexeme} (h : s.Valid rest)
    {ws front back : List Word} (hw : ws ++ s.foot = front ++ back) (hback : back ≠ [])
    (hstart : startsOp [';'] (lexemes back ++ ls) = false) :
    ∃ mid, ws = front ++ mid ∧ back = mid ++ s.foot := by
  rcases List.append_eq_append_iff.1 hw with ⟨a, hfront, hfoot⟩ | hmid
  · cases a with
    | nil => exact ⟨[], by simpa using hfront.symm, hfoot.symm⟩
    | cons v a =>
      exfalso
      have hs := h.semicolon
      have hrest : s.semicolon.toList = a ++ back := (List.cons.inj hfoot).2
      cases hcase : s.semicolon with
      | none =>
        rw [hcase] at hrest
        exact hback (List.append_eq_nil_iff.1 hrest.symm).2
      | some w =>
        rw [hcase] at hrest hs
        rcases List.singleton_eq_append_iff.1 hrest with ⟨-, rfl⟩ | ⟨-, hnil⟩
        · exact Bool.false_ne_true (hstart.symm.trans hs)
        · exact hback hnil
  · exact hmid

/-- No service ends with a closing brace that stands behind an opening one and a loose semicolon:
its members do not end with the opening brace, and nothing in front of its body is loose. -/
theorem Service.Valid.not_braced {s : Service} {rest ls : List Lexeme} (h : s.Valid rest)
    {front back : List Word} (hw : s.words.tail = front ++ back) (hback : back ≠ [])
    (hstart : startsOp [';'] (lexemes back ++ ls) = false) :
    braced false false (lexemes back ++ ls) = false := by
  rw [Bool.eq_false_iff]
  intro hbraced
  have hwords : s.words.tail = (s.attach ++ s.on :: s.listener ++ [s.opening]
      ++ serviceGrammar.words s.items) ++ s.foot := by
    simp [words, head]
  obtain ⟨mid, hmid, rfl⟩ := h.exists_foot (hwords.symm.trans hw) hback hstart
  rw [lexemes_append, foot, lexemes_cons, List.append_assoc, List.cons_append] at hbraced
  rcases loose_of_braced hbraced h.closing with ⟨-, hfalse⟩ | ⟨init, o, hinit, ho, hcases⟩
  · cases hfalse
  have hloose : Loose init := hcases.resolve_left fun hfalse => Bool.false_ne_true hfalse.1
  obtain ⟨mid, last, rfl, rfl, hlast⟩ := List.map_eq_append_iff.1 hinit
  obtain ⟨w, rfl, rfl⟩ := List.map_eq_singleton_iff.1 hlast
  rcases List.eq_nil_or_concat (serviceGrammar.words s.items) with hnil | ⟨is, v, his⟩
  · rw [hnil, List.append_nil, ← List.append_assoc] at hmid
    have hhead : s.attach ++ s.on :: s.listener = front ++ mid := (List.append_inj' hmid rfl).1
    refine h.not_loose ?_
    rw [hhead, lexemes_append]
    exact hloose.append (lexemes front)
  · rw [his, List.concat_eq_append, ← List.append_assoc, ← List.append_assoc] at hmid
    obtain rfl : v = w := by simpa using (List.append_inj' hmid rfl).2
    rw [List.concat_eq_append] at his
    have hnone := opens?_last_of_allValid h.items his
    rw [Lexeme.opens?_of_isOp (b := .brace) ho] at hnone
    cases hnone

end Phrase

/-- Whether no service that begins in front of these lexemes ends among them. -/
def sealed (ls : List Lexeme) : Bool :=
  braced false false ls && !startsOp [';'] ls && ls.all (!·.isWord "service".toList)

/-- Whether no service that begins in front of a text ends in it. -/
def Text.isSealed (t : Text) : Bool :=
  t.scan.toOption.any fun ts => sealed (ts.map (·.toLexeme))

theorem sealed_of_legible {ws : List Word} {tail : Text} (hl : Legible ws tail)
    (ht : Trailing tail) (h : Text.isSealed (spell ws ++ tail) = true) :
    sealed (lexemes ws) = true := by
  rw [Text.isSealed, Tree.scan_of_legible hl ht] at h
  simpa [Except.toOption, Tree.tokensFrom_toLexeme] using h

namespace Parted

variable {source r tail : Text} {front back : List Word}

theorem length_le (h : Parted source r tail front back) {ws a : List Word} (hws : EndsInOperator ws)
    (hf : front = ws ++ a) : (spell ws).length ≤ source.length := by
  cases h with
  | gap g hs _ _ =>
    rw [hs, hf]
    simp only [spell_append, List.length_append]
    omega
  | word init w hinit hk hle _ =>
    rw [hf] at hinit
    rcases List.eq_nil_or_concat a with rfl | ⟨a, v, rfl⟩
    · obtain ⟨us, v, rfl, hv⟩ := hws
      rw [List.append_nil] at hinit
      obtain rfl : v = w := by simpa using (List.append_inj' hinit rfl).2
      exact absurd hv hk
    · rw [List.concat_eq_append, ← List.append_assoc] at hinit
      rw [← (List.append_inj' hinit rfl).1, spell_append, List.length_append] at hle
      omega

theorem sealed_back {bs : List (Item ModuleMember)} {btail : Text}
    (h : Parted source r tail front back) (hb : Appendix ('\n' :: r) bs btail)
    (hseals : ∀ t ∈ ('\n' :: r) :: remainders r, Text.isSealed t = true) (hl : Legible back tail)
    (ht : Trailing tail) : sealed (lexemes back) = true := by
  cases h with
  | gap g _ hback hle =>
    rw [hb.lexemes_eq (hb.trailing_of_gap hl ht hback hle) hl ht hback]
    refine sealed_of_legible hb.legible hb.trailing ?_
    rw [← hb.text]
    exact hseals _ List.mem_cons_self
  | word _ _ _ _ _ hback =>
    exact sealed_of_legible hl ht (hseals _ (List.mem_cons_of_mem _ hback))

end Parted

theorem exists_of_mem_nodesAll {before next : Text} {bs : List Branch} {n : Node}
    (h : n ∈ nodesAll before next bs) :
    ∃ as b cs, bs = as ++ b :: cs
      ∧ n ∈ nodes (before ++ spell (wordsAll as)) (gapBefore next (wordsAll cs)) b := by
  induction bs generalizing before with
  | nil => simp at h
  | cons b bs ih =>
    rw [nodesAll_cons, List.mem_append] at h
    rcases h with h | h
    · exact ⟨[], b, bs, rfl, by simpa using h⟩
    · obtain ⟨as, c, cs, rfl, hc⟩ := ih h
      exact ⟨b :: as, c, cs, rfl, by simpa using hc⟩

/-- A service among members, with the words in front of it and behind it. -/
theorem exists_service {items : List (Item ModuleMember)} {tail : Text} {n : Node}
    (hv : moduleGrammar.AllValid none items [])
    (hn : n ∈ nodesAll [] tail (items.map moduleGrammar.itemBranch))
    (hk : n.kind = .serviceDeclaration) :
    ∃ (front back : List Word) (s : Service) (rest : List Lexeme),
      moduleGrammar.words items = front ++ s.words ++ back ∧ s.Valid rest
      ∧ EndsInOperator (front ++ s.words) ∧ n.stop = (spell (front ++ s.words)).length := by
  obtain ⟨as, b, cs, hsplit, hn⟩ := exists_of_mem_nodesAll hn
  obtain ⟨front, others, rfl, rfl, hothers⟩ := List.map_eq_append_iff.1 hsplit
  obtain ⟨item, back, rfl, rfl, rfl⟩ := List.map_eq_cons_iff.1 hothers
  have hvalid := (Grammar.allValid_append.1 hv).2
  cases item with
  | semicolon w => simp [Grammar.itemBranch] at hn
  | member m =>
    have hm := hvalid.2.1
    cases m with
    | declaration i =>
      rw [Grammar.itemBranch, moduleGrammar_declaration, Import.branch, nodes_node,
        List.mem_singleton] at hn
      rw [hn] at hk
      cases hk
    | service leading s =>
      have hends := ModuleMember.endsInOperator hm
      simp only [moduleGrammar_service, words_node, wordsAll_append, Leading.wordsAll_branches,
        Service.wordsAll_branches] at hends
      refine ⟨moduleGrammar.words front ++ leading.words, moduleGrammar.words back, s, _, ?_,
        hm.2, ?_, ?_⟩
      · simp [Grammar.words, Grammar.itemBranch]
      · rw [List.append_assoc]
        exact hends.append _
      · rw [Grammar.itemBranch, moduleGrammar_service, nodes_node, List.mem_singleton] at hn
        simp [hn, nodeOver, Grammar.words]
    | function d =>
      rw [Grammar.itemBranch, moduleGrammar_function, Definition.branch, nodes_node,
        List.mem_singleton] at hn
      rw [hn] at hk
      cases hk
    | other o =>
      rw [Grammar.itemBranch, moduleGrammar_other, Other.branch, nodes_node,
        List.mem_singleton] at hn
      rw [hn] at hk
      cases hk

namespace Appendix

variable {b btail : Text} {bs : List (Item ModuleMember)} (h : Appendix b bs btail)

include h

/-- No service lies across the seam to an appendix in which none ends. -/
theorem kind_ne_service (hseals : ∀ t ∈ b :: remainders b.tail, Text.isSealed t = true)
    {source : Text} {tree : Tree} (hparse : Tree.parse (source ++ b) = .ok tree) {n : Node}
    (hn : n ∈ tree.root.children) (hs : n.Straddles source.length) :
    n.kind ≠ .serviceDeclaration := by
  intro hkind
  obtain ⟨r, rfl⟩ := h.exists_newline
  obtain ⟨items, tail, hsource, hv, hl, ht, rfl⟩ := Tree.exists_of_parse hparse
  obtain ⟨before, behind, s, rest, hwords, hvalid, hends, hstop⟩ := exists_service hv hn hkind
  obtain ⟨front, back, hsplit, hparted⟩ := hl.exists_parted hsource.symm
  rw [hsplit, legible_append] at hl
  have hsealed := hparted.sealed_back h hseals hl.2 ht
  have hacross : source.length < (spell (before ++ s.words)).length := by
    rw [← hstop]
    exact hs.2
  -- the seam is in front of the last word of the service
  obtain ⟨last, hlast, hne, rfl⟩ : ∃ last, before ++ s.words = front ++ last ∧ last ≠ []
      ∧ back = last ++ behind := by
    rcases List.append_eq_append_iff.1 (hwords.symm.trans hsplit) with ⟨a, hfront, -⟩ | ⟨c, hc, hb⟩
    · exact absurd (hparted.length_le hends hfront) (Nat.not_le.2 hacross)
    · refine ⟨c, hc, ?_, hb⟩
      rintro rfl
      rw [List.append_nil] at hc
      have hfront : front = before ++ s.words ++ [] := by rw [List.append_nil, hc]
      exact absurd (hparted.length_le hends hfront) (Nat.not_le.2 hacross)
  simp only [sealed, Bool.and_eq_true, Bool.not_eq_true', lexemes_append] at hsealed
  obtain ⟨⟨hbraced, hstart⟩, hservice⟩ := hsealed
  -- and behind its keyword
  obtain ⟨a, ha⟩ : ∃ a, s.words.tail = a ++ last := by
    have hkeyword : before ++ s.words = before ++ [s.keyword] ++ s.words.tail := by
      simp [Service.words, Service.head]
    rcases List.append_eq_append_iff.1 (hkeyword.symm.trans hlast) with ⟨a, -, ha⟩ | ⟨a, ha, hrest⟩
    · exact ⟨a, ha⟩
    · rcases List.eq_nil_or_concat a with rfl | ⟨a, w, rfl⟩
      · exact ⟨[], hrest.symm⟩
      · exfalso
        rw [List.concat_eq_append, ← List.append_assoc] at ha
        obtain rfl : s.keyword = w := by simpa using (List.append_inj' ha rfl).2
        have hnot := List.all_eq_true.1 hservice s.keyword.lexeme (by simp [hrest])
        rw [hvalid.keyword] at hnot
        cases hnot
  have hfalse := hvalid.not_braced ha hne hstart
  rw [hbraced] at hfalse
  cases hfalse

end Appendix

theorem Snippet.sealed_boilerplate :
    ∀ t ∈ boilerplate :: remainders boilerplate.tail, Text.isSealed t = true := by
  simp only [boilerplate, lines, List.flatMap_cons, List.flatMap_nil]
  repeat rw [String.toList_ofList]
  decide +kernel

namespace Mediation

theorem patch_of_parse_error {d : Document} {b : Text} {e : ParseError}
    (h : Tree.parse (d.text ++ b) = .error e) (g : Generator) (width : Int) :
    Mediation.patch d b g width = .error (.parse e) := by
  unfold Mediation.patch batch
  rw [appended_eq]
  simp only [bind, Except.bind, h, Except.mapError]

/-- The text of a document is refused exactly if its mediation ends with a parse error of the text
and the boilerplate, or a member begins in the text and ends in the boilerplate; that member is no
service. -/
theorem refused_iff (d : Document) (g : Generator) (width : Int) :
    (∃ e, Tree.parse d.text = .error e)
      ↔ (∃ e, Tree.parse (d.text ++ Snippet.boilerplate) = .error e
          ∧ Mediation.patch d Snippet.boilerplate g width = .error (.parse e))
        ∨ ∃ tree, Tree.parse (d.text ++ Snippet.boilerplate) = .ok tree
          ∧ ∃ n ∈ tree.root.children, n.Straddles d.text.length
            ∧ n.kind ≠ .serviceDeclaration := by
  obtain ⟨items, tail, hb⟩ := Snippet.exists_appendix
  have hiff := hb.parse_append_iff d.text
  constructor
  · rintro ⟨e, he⟩
    cases hparse : Tree.parse (d.text ++ Snippet.boilerplate) with
    | error e' => exact .inl ⟨e', rfl, patch_of_parse_error hparse g width⟩
    | ok tree =>
      refine .inr ⟨tree, rfl, ?_⟩
      by_contra hnone
      obtain ⟨tree', htree'⟩ := hiff.2 ⟨tree, hparse, fun n hn hs =>
        hnone ⟨n, hn, hs, hb.kind_ne_service Snippet.sealed_boilerplate hparse hn hs⟩⟩
      rw [he] at htree'
      cases htree'
  · intro hcases
    cases hparse : Tree.parse d.text with
    | error e => exact ⟨e, rfl⟩
    | ok tree =>
      exfalso
      obtain ⟨tree', htree', hns⟩ := hiff.1 ⟨tree, hparse⟩
      rcases hcases with ⟨e, he, -⟩ | ⟨tree'', htree'', n, hn, hstraddles, -⟩
      · rw [htree'] at he
        cases he
      · obtain rfl := Except.ok.inj (htree'.symm.trans htree'')
        exact hns n hn hstraddles

/-- An import without its semicolon is refused, and yet the document is mediated: the first
declaration of the boilerplate becomes part of the import. -/
theorem patch_unfinished_import :
    let d : Document := ⟨"proxy_service.bal".toList, "import foo".toList⟩
    let g := Generator.templated (SnippetLocation.bundled.read ⟨[]⟩ []) ⟨["f".toList], [], none, 4⟩
    (∃ e, Tree.parse d.text = .error e)
      ∧ ∃ d', Mediation.patch d Snippet.boilerplate g 4 = .ok d' := by
  intro d g
  have hparse : (Tree.parse d.text).toOption.isSome = false := by
    simp only [d]
    rw [String.toList_ofList]
    decide +kernel
  have hpatch : (Mediation.patch d Snippet.boilerplate g 4).toOption.isSome = true := by
    simp only [d, g, Snippet.boilerplate, Snippet.lines, List.flatMap_cons, List.flatMap_nil]
    repeat rw [String.toList_ofList]
    decide +kernel
  constructor
  · cases he : Tree.parse d.text with
    | error e => exact ⟨e, rfl⟩
    | ok tree =>
      rw [he] at hparse
      cases hparse
  · cases hd : Mediation.patch d Snippet.boilerplate g 4 with
    | error e =>
      rw [hd] at hpatch
      cases hpatch
    | ok d' => exact ⟨d', rfl⟩

end Mediation

end BalMediation
