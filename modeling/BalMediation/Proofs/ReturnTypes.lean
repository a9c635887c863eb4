import BalMediation.Proofs.Statements

/-!
# Return types

A generator over the bundled snippets that is given a return type, and no hooks, puts it in place
of every return type of a resource. Main statement: what comes out is read again, resources that
had a return type have the one that is given, and the others have none (`Patch.parse_retyped`).

The type is put where the old one was, and nothing around it is changed. That is why its tokens
have to stay apart from those around it (`Node.admits`), which fails where the old type is a bracket
behind the keyword (`Patch.parse_retyped_glued`). What such a type is, as words that can stand
behind everything and in front of every body, is found by reading the function that has it
(`Text.IsReturnType.exists_words`).
-/

namespace BalMediation

open Lexer Segment Branch Cursor Phrase

/-! ## Keeping tokens apart -/

namespace Lexer

/-- Words whose first tokens are those of others begin with them. -/
theorem exists_words_behind {us ws : List Word} {x tail : Text} {pos : Nat} {ts : List Token}
    (h : spell us ++ x = spell ws ++ tail) (ht : tokensFrom pos ws = tokensFrom pos us ++ ts) :
    ∃ rest, ws = us ++ rest ∧ x = spell rest ++ tail
      ∧ ts = tokensFrom (pos + (spell us).length) rest := by
  induction us generalizing ws pos with
  | nil => exact ⟨ws, rfl, h, by simpa [tokensFrom] using ht.symm⟩
  | cons u us ih =>
    cases ws with
    | nil => simp [tokensFrom] at ht
    | cons w ws =>
      simp only [tokensFrom, List.cons_append, List.cons.injEq, Token.mk.injEq] at ht
      obtain ⟨⟨hlex, hstart⟩, ht⟩ := ht
      simp only [spell_cons, List.append_assoc] at h
      obtain ⟨hgap, h⟩ := List.append_inj h (by omega)
      obtain rfl : w = u := by
        cases w
        cases u
        simp_all
      obtain ⟨rest, rfl, hx, hts⟩ := ih (List.append_cancel_left h) ht
      refine ⟨rest, rfl, hx, ?_⟩
      rw [hts, spell_cons, Word.text]
      simp [Nat.add_assoc]

/-- Reading goes over words to what comes behind them. -/
theorem scanFrom_legible {us : List Word} {x : Text} (h : Legible us x) (pos : Nat) :
    scanFrom pos (spell us ++ x)
      = (scanFrom (pos + (spell us).length) x).map (tokensFrom pos us ++ ·) := by
  induction us generalizing pos with
  | nil =>
    cases hs : scanFrom pos x <;> simp [tokensFrom, hs, Except.map]
  | cons u us ih =>
    obtain ⟨hg, hr, hl⟩ := h
    rw [spell_cons, List.append_assoc, List.append_assoc, scanFrom_gap hg, scanFrom_reads hr, ih hl]
    have hlen : pos + u.gap.length + u.lexeme.text.length + (spell us).length
        = pos + (u.gap ++ u.lexeme.text ++ spell us).length := by
      simp [Nat.add_assoc]
    rw [hlen]
    cases scanFrom (pos + (u.gap ++ u.lexeme.text ++ spell us).length) x with
    | error e => rfl
    | ok ts => simp [Except.map, tokensFrom, Word.text, Nat.add_assoc]

/-- The words of a text begin with those that are read off its front. -/
theorem exists_words_append {us ws : List Word} {x tail : Text} (hu : Legible us x)
    (hw : Legible ws tail) (ht : Trailing tail) (h : spell us ++ x = spell ws ++ tail) :
    ∃ rest, ws = us ++ rest ∧ x = spell rest ++ tail := by
  have hscan := scanFrom_legible hu 0
  rw [h, scanFrom_spell hw ht] at hscan
  cases hx : scanFrom (0 + (spell us).length) x with
  | error e =>
    rw [hx] at hscan
    cases hscan
  | ok ts =>
    rw [hx] at hscan
    obtain ⟨rest, hrest, hspell, -⟩ := exists_words_behind h (Except.ok.inj hscan)
    exact ⟨rest, hrest, hspell⟩

/-- Words can be read where the tokens of a text begin with theirs. -/
theorem legible_of_scanFrom {us : List Word} {x : Text} {pos : Nat} {ts : List Token}
    (h : scanFrom pos (spell us ++ x) = .ok (tokensFrom pos us ++ ts)) :
    Legible us x ∧ scanFrom (pos + (spell us).length) x = .ok ts := by
  obtain ⟨ws, tail, hs, hl, ht, hts⟩ := exists_words h
  obtain ⟨rest, rfl, rfl, rfl⟩ := exists_words_behind hs hts.symm
  rw [legible_append] at hl
  exact ⟨hl.1, scanFrom_spell hl.2 ht _⟩

end Lexer

/-- Whether a text between two others is cut into its own tokens, and they into theirs. -/
def Text.keepsApart (a t b : Text) : Bool :=
  match scanFrom 0 a, scanFrom a.length t, scanFrom (a ++ t).length b with
  | .ok as, .ok ts, .ok bs => (scanFrom 0 (a ++ t ++ b)).toOption == some (as ++ ts ++ bs)
  | _, _, _ => false

theorem Text.legible_of_keepsApart {front ws : List Word} {gap b : Text}
    (h : keepsApart (spell front ++ gap) (spell ws) b = true) (hf : Legible front gap)
    (hg : Gap gap) (hw : Legible ws []) (hne : ws ≠ []) :
    Legible front (gap ++ (spell ws ++ b)) ∧ Legible (pad gap ws) b := by
  have hfront := scanFrom_spell hf (.gap hg) 0
  have hwords : scanFrom (spell front ++ gap).length (spell ws)
      = .ok (tokensFrom (spell front ++ gap).length ws) := by
    simpa using scanFrom_spell hw (.gap .nil) (spell front ++ gap).length
  unfold keepsApart at h
  rw [hfront, hwords] at h
  split at h
  · rename_i as ts bs has hts _
    cases has
    cases hts
    have hall := ok_of_toOption (beq_iff_eq.1 h)
    rw [List.append_assoc, List.append_assoc, List.append_assoc] at hall
    obtain ⟨hlegible, hrest⟩ := legible_of_scanFrom hall
    refine ⟨hlegible, ?_⟩
    have hpad : tokensFrom (spell front ++ gap).length ws
        = tokensFrom (0 + (spell front).length) (pad gap ws) := by
      rw [tokensFrom_pad, List.length_append, Nat.zero_add]
    rw [← List.append_assoc, ← spell_pad hne, hpad] at hrest
    exact (legible_of_scanFrom hrest).1
  · cases h

/-! ## What a return type is -/

/-- Whether a text is the return type of the function that has it between `returns` and a block. -/
def Text.IsReturnType (t : Text) : Prop :=
  ∃ tree, Tree.parse ("function f() returns ".toList ++ t ++ " \x7b\x7d".toList) = .ok tree
    ∧ (tree.root.children.head?.bind Node.returnType?).map (·.value) = some (some t)

instance (t : Text) : Decidable t.IsReturnType :=
  decidable_of_iff (((Tree.parse ("function f() returns ".toList ++ t
      ++ " \x7b\x7d".toList)).toOption.any fun tree =>
    (tree.root.children.head?.bind Node.returnType?).map (·.value) == some (some t)) = true) <| by
    constructor
    · intro h
      obtain ⟨tree, hparse, hvalue⟩ := exists_of_any h
      exact ⟨tree, hparse, beq_iff_eq.1 hvalue⟩
    · rintro ⟨tree, hparse, hvalue⟩
      rw [hparse]
      exact beq_iff_eq.2 hvalue

theorem Nested.closes?_head {l : Lexeme} {ls : List Lexeme} (h : Nested (l :: ls)) :
    l.closes? = none := by
  generalize hs : l :: ls = s at h
  cases h with
  | nil => cases hs
  | plain ho hc _ =>
    obtain ⟨rfl, -⟩ := List.cons.inj hs
    exact hc
  | group ho _ _ _ =>
    obtain ⟨rfl, -⟩ := List.cons.inj hs
    by_contra hc
    obtain ⟨b, hb⟩ := Option.ne_none_iff_exists'.1 hc
    rw [Lexeme.opens?_of_closes? hb] at ho
    cases ho

theorem Cursor.Passes.ne_stop {rule : Option Lexeme → Lexeme → Step} {p : Option Lexeme}
    {l : Lexeme} {ls : List Lexeme} (h : Passes rule p (l :: ls)) : rule p l ≠ .stop := by
  generalize hs : l :: ls = s at h
  cases h with
  | nil => cases hs
  | pass hr _ =>
    obtain ⟨rfl, -⟩ := List.cons.inj hs
    simp [hr]
  | group hr _ _ _ =>
    obtain ⟨rfl, -⟩ := List.cons.inj hs
    simp [hr]

namespace Phrase

/-- The words of a return type: they can stand behind everything, and in front of every body. -/
structure IsType (ws : List Word) : Prop where
  legible : Legible ws []
  ne_nil : ws ≠ []
  flush : gapBefore [] ws = []
  passes : ∀ p, Passes typeRule p (lexemes ws)
  noSign : startsOp ['@'] (lexemes ws) = false
  noBrace : startsOp ['\x7b'] (lexemes ws) = false
  closed : ∀ p, opensTypeBody (latest p (lexemes ws)) = false

/-- Nothing stands in front of a member that begins with another lexeme. -/
theorem Leading.Valid.words_eq_nil {h : Leading} {allowed : List Text} {rest : List Lexeme}
    (hv : h.Valid allowed rest) {l : Lexeme} {ls : List Lexeme}
    (hl : lexemes h.words ++ rest = l :: ls) (hsign : l.isOp ['@'] = false)
    (hallowed : l.text ∉ allowed) : h.words = [] := by
  obtain ⟨annotations, qualifiers⟩ := h
  cases annotations with
  | cons a as =>
    have ha : a.sign.lexeme.isOp ['@'] = true := hv.annotations.1.sign
    have hsigned : a.sign.lexeme = l := (List.cons.inj hl).1
    rw [hsigned, hsign] at ha
    cases ha
  | nil =>
    cases qualifiers with
    | nil => rfl
    | cons q qs =>
      have hq : q.lexeme = l := (List.cons.inj hl).1
      exact absurd (hq ▸ (hv.qualifiers q List.mem_cons_self).2) hallowed

/-- A member of a module that begins with `function` and a name is a function. -/
theorem ModuleMember.exists_function {m : ModuleMember} {p : Option Lexeme}
    {rest ls : List Lexeme} {name : Lexeme} (hv : moduleGrammar.Valid p m rest)
    (hl : lexemes (moduleGrammar.branch m).words ++ rest
      = ⟨.ident, "function".toList⟩ :: name :: ls) (hn : name.kind = .ident) :
    ∃ d, m = .function d ∧ d.leading.words = [] := by
  have hnone : ∀ {leading : Leading} {core rest : List Lexeme},
      leading.Valid moduleQualifiers (core ++ rest) →
      lexemes leading.words ++ (core ++ rest) = ⟨.ident, "function".toList⟩ :: name :: ls →
      leading.words = [] ∧ core ++ rest = ⟨.ident, "function".toList⟩ :: name :: ls := by
    intro leading core rest hv hl
    have hnil := hv.words_eq_nil hl (by decide) (by decide)
    rw [hnil] at hl
    exact ⟨hnil, hl⟩
  cases m with
  | declaration i =>
    have hi : i.Valid := hv
    have hkey : i.keyword.lexeme = ⟨.ident, "function".toList⟩ := by
      rw [moduleGrammar_declaration, Import.words_branch] at hl
      exact (List.cons.inj hl).1
    exact absurd (hkey ▸ hi.keyword) (by decide)
  | service leading s =>
    obtain ⟨hlead, hs⟩ := hv
    have hwords : (moduleGrammar.branch (.service leading s)).words = leading.words ++ s.words := by
      simp
    rw [hwords, lexemes_append, List.append_assoc] at hl
    have hkey : s.keyword.lexeme = ⟨.ident, "function".toList⟩ :=
      (List.cons.inj (hnone hlead hl).2).1
    exact absurd (hkey ▸ hs.keyword) (by decide)
  | other o =>
    obtain ⟨ho, -, -, hplain⟩ := hv
    rw [moduleGrammar_other, Other.words_branch, Other.words, lexemes_append,
      List.append_assoc] at hl
    obtain ⟨-, hcore⟩ := hnone ho.leading hl
    cases hc : lexemes o.core with
    | nil => exact absurd hc o.core_ne_nil
    | cons l core =>
      rw [hc] at hcore hplain
      obtain rfl := (List.cons.inj hcore).1
      have hparen := hplain rfl
      cases core with
      | nil => cases hparen
      | cons l core =>
        obtain rfl := (List.cons.inj (List.cons.inj hcore).2).1
        simp [startsOp, Lexeme.isOp, hn] at hparen
  | function d =>
    have hd : d.Valid moduleQualifiers .functionDefinition := hv
    rw [moduleGrammar_function, Definition.words_branch, Definition.words, lexemes_append,
      List.append_assoc] at hl
    have hlead := hd.leading.congr (.of_take (d.function.take_words rest).symm)
    exact ⟨d, rfl, (hnone hlead hl).1⟩

theorem Attachment.AllValid.startsOp {as : List Attachment} {rest : List Lexeme}
    (h : AllValid as rest) : Phrase.startsOp ['@'] rest = false := by
  induction as with
  | nil => exact h
  | cons a as ih => exact ih h.2

/-- Without a brace in front, the lexemes of a type do not depend on what is before them. -/
theorem typePasses_of_noBrace {p : Option Lexeme} {ls : List Lexeme} (h : Passes typeRule p ls)
    (hb : startsOp ['\x7b'] ls = false) (q : Option Lexeme) : Passes typeRule q ls := by
  have hrule : ∀ l, l.isOp ['\x7b'] = false → typeRule q l = typeRule p l := by
    intro l hl
    simp [typeRule, opensBlock, hl]
  cases h with
  | nil => exact .nil
  | pass hr h => exact .pass ((hrule _ hb).trans hr) h
  | group hr hi hc h => exact .group ((hrule _ hb).trans hr) hi hc h

theorem typeRule_brace {p : Option Lexeme} {l : Lexeme} (hl : l.isOp ['\x7b'] = true)
    (hp : opensTypeBody p = false) : typeRule p l = .stop := by
  simp [typeRule, opensBlock, hl, hp]

/-- A type whose first lexeme comes right behind the keyword has no annotations in front of it. -/
theorem Returns.Valid.annotations_eq_nil {r : Returns} {rest : List Lexeme} (h : r.Valid rest)
    {w : Word} {type : List Word} (hw : r.type = w :: type) {gap : Text} {us vs : List Word}
    (hwords : r.annotations.flatMap Attachment.words ++ us = ⟨gap, w.lexeme⟩ :: vs) :
    r.annotations = [] := by
  have hsign := h.annotations.startsOp
  have hv := h.annotations
  rw [hw] at hsign
  cases ha : r.annotations with
  | nil => rfl
  | cons a as =>
    rw [ha] at hwords hv
    have hfirst : a.sign = ⟨gap, w.lexeme⟩ := (List.cons.inj hwords).1
    have hop := hv.1.sign
    rw [hfirst] at hop
    exact absurd (hop.symm.trans hsign) (by decide)

/-- The type between `returns` and a block can stand behind everything and in front of every
body. -/
theorem Returns.Valid.isType {r : Returns} {ls : List Lexeme}
    (h : r.Valid (⟨.op, ['\x7b']⟩ :: ls)) (hlatest : r.latest = some ⟨.ident, "returns".toList⟩)
    {w : Word} {type : List Word} (hw : r.type = w :: type)
    (hl : Legible (⟨[], w.lexeme⟩ :: type) []) : IsType (⟨[], w.lexeme⟩ :: type) := by
  have hends := h.ends
  have hpasses := h.type
  have hsign := h.annotations.startsOp
  rw [hw] at hends hpasses hsign
  rw [hlatest] at hpasses
  have hnoBrace : startsOp ['\x7b'] (lexemes (w :: type)) = false := by
    by_contra hb
    rw [Bool.not_eq_false] at hb
    exact hpasses.ne_stop (typeRule_brace hb rfl)
  refine ⟨hl, by simp, rfl, fun p => typePasses_of_noBrace hpasses hnoBrace p, hsign, hnoBrace,
    fun p => ?_⟩
  -- What is latest behind a type is a lexeme of the type.
  change opensTypeBody (Cursor.latest r.latest (lexemes (w :: type))) = false
  by_contra hopen
  rw [Bool.not_eq_false] at hopen
  have hstop : typeRule (Cursor.latest r.latest (lexemes (w :: type))) ⟨.op, ['\x7b']⟩ = .stop :=
    hends
  rw [typeRule, opensBlock, hopen] at hstop
  cases hstop

/-- The words in front of the type of a function. -/
def returnsFront : List Word :=
  [⟨[], ⟨.ident, "function".toList⟩⟩, ⟨[' '], ⟨.ident, ['f']⟩⟩, ⟨[], ⟨.op, ['(']⟩⟩,
    ⟨[], ⟨.op, [')']⟩⟩, ⟨[' '], ⟨.ident, "returns".toList⟩⟩]

/-- The words of an empty block. -/
def emptyBlock : List Word :=
  [⟨[' '], ⟨.op, ['\x7b']⟩⟩, ⟨[], ⟨.op, ['\x7d']⟩⟩]

/-- A function without parameters, by the words from its name on. -/
theorem Function.exists_returns {f : Function} (hv : f.Valid .functionDefinition) {r : Returns}
    (hr : f.signature.returns = some r) {rest ws : List Word}
    (hw : f.words ++ rest = returnsFront ++ ws) :
    r.Valid (lexemes f.body.words) ∧ r.keyword.lexeme = ⟨.ident, "returns".toList⟩
      ∧ r.annotations.flatMap Attachment.words ++ r.type ++ f.body.words ++ rest = ws := by
  obtain ⟨keyword, name, path, ⟨⟨opening, inside, closing⟩, returns⟩, body⟩ := f
  have hpath : path = [] := hv.path
  have hsig := hv.signature
  subst hpath
  cases hr
  simp only [Function.words, Signature.words, Signature.returnsWords, Group.words, returnsFront,
    List.cons_append, List.nil_append, List.cons.injEq, List.append_assoc] at hw
  obtain ⟨-, -, -, hw⟩ := hw
  cases inside with
  | cons w inside =>
    exfalso
    have hin : Nested (w.lexeme :: lexemes inside) := hsig.params.inside
    obtain ⟨rfl, -⟩ := List.cons.inj hw
    exact absurd hin.closes?_head (by decide)
  | nil =>
    obtain ⟨-, hw⟩ := List.cons.inj hw
    obtain ⟨hkey, hw⟩ := List.cons.inj hw
    refine ⟨hsig.returns, by rw [hkey], ?_⟩
    rw [← hw]
    simp

end Phrase

theorem Text.IsReturnType.exists_returns {t : Text} (h : t.IsReturnType) :
    ∃ (r : Returns) (body : Body) (rest : List Word) (tail : Text), r.Valid (lexemes body.words)
      ∧ r.keyword.lexeme = ⟨.ident, "returns".toList⟩ ∧ caption r.type = t
      ∧ ' ' :: (t ++ " \x7b\x7d".toList) = spell (r.annotations.flatMap Attachment.words ++ r.type
        ++ body.words ++ rest) ++ tail
      ∧ Legible (r.annotations.flatMap Attachment.words ++ r.type ++ body.words ++ rest) tail
      ∧ Trailing tail := by
  obtain ⟨tree, hparse, hvalue⟩ := h
  obtain ⟨items, tail, hs, hv, hl, ht, rfl⟩ := Tree.exists_of_parse hparse
  have hfront : Legible returnsFront (' ' :: (t ++ " \x7b\x7d".toList)) :=
    (legible_of_blanks (show legibleInBlanks returnsFront [' '] = true by decide +kernel)).of_space
      rfl
  have hspell : "function f() returns ".toList = spell returnsFront ++ [' '] := by decide +kernel
  rw [hspell, List.append_assoc, List.append_assoc] at hs
  obtain ⟨ws, hws, htype⟩ := exists_words_append hfront hl ht hs
  rw [hws, legible_append] at hl
  cases items with
  | nil => simp [returnsFront] at hws
  | cons item items =>
    cases item with
    | semicolon w =>
      rw [Grammar.words_semicolon] at hws
      obtain ⟨rfl, -⟩ := List.cons.inj hws
      exact absurd hv.1 (by decide)
    | member m =>
      obtain ⟨-, hm, -⟩ := hv
      rw [Grammar.words_member] at hws
      have hfirst : lexemes (moduleGrammar.branch m).words
          ++ (lexemes (moduleGrammar.words items) ++ [])
            = ⟨.ident, "function".toList⟩ :: ⟨.ident, ['f']⟩ ::
              lexemes (returnsFront.drop 2 ++ ws) := by
        rw [List.append_nil, ← lexemes_append, hws]
        rfl
      obtain ⟨d, rfl, hlead⟩ := ModuleMember.exists_function hm hfirst rfl
      have hd : d.Valid moduleQualifiers .functionDefinition := hm
      have hreturns : d.returnType?.map some = some (some t) := by
        rw [← d.returnType?_node .functionDefinition [] _]
        exact hvalue
      obtain ⟨_, hreturns, ⟨⟩⟩ := Option.map_eq_some_iff.1 hreturns
      obtain ⟨r, hr, rfl⟩ := Option.map_eq_some_iff.1 hreturns
      rw [moduleGrammar_function, Definition.words_branch, Definition.words, hlead,
        List.nil_append] at hws
      obtain ⟨hvalid, hkey, rfl⟩ := Function.exists_returns hd.function hr hws
      exact ⟨r, d.function.body, moduleGrammar.words items, tail, hvalid, hkey, rfl, htype, hl.2,
        ht⟩

theorem Text.IsReturnType.exists_words {t : Text} (h : t.IsReturnType) :
    ∃ ws, t = spell ws ∧ IsType ws := by
  obtain ⟨r, body, rest, tail, hr, hkey, rfl, hs, hl, ht⟩ := h.exists_returns
  obtain ⟨w, type, hw⟩ := List.exists_cons_of_ne_nil hr.ne_nil
  have hparts := hl
  rw [legible_append, legible_append, legible_append] at hparts
  have hlegible : Legible (⟨[], w.lexeme⟩ :: type) [] := by
    have htype := hparts.1.1.2
    rw [hw] at htype
    have htype : Legible (⟨[], w.lexeme⟩ :: type) ([] ++ _) := ⟨.nil, htype.2.1, htype.2.2⟩
    exact htype.of_append
  have hcaption : caption r.type = spell (⟨[], w.lexeme⟩ :: type) := by
    rw [hw]
    simp [caption]
  -- Read from the keyword on, the words are those of the type, so no annotation is in front of it.
  have hpad : Legible (pad [' '] (⟨[], w.lexeme⟩ :: type)) (' ' :: "\x7b\x7d".toList) :=
    (hlegible.of_space rfl).pad fun _ _ hg => .space rfl hg
  obtain ⟨ws, hws, hblock⟩ := exists_words_append hpad hl ht (by
    rw [spell_pad (by simp), ← hcaption]
    exact hs)
  have hannotations : r.annotations = [] := by
    rw [List.append_assoc, List.append_assoc] at hws
    exact hr.annotations_eq_nil hw hws
  have hbody : body.words ++ rest = ws := by
    rw [hannotations, hw] at hws
    have hws : w :: (type ++ (body.words ++ rest)) = ⟨[' '], w.lexeme⟩ :: (type ++ ws) := by
      simpa [Lexer.pad] using hws
    exact List.append_cancel_left (List.cons.inj hws).2
  obtain ⟨ls, hls⟩ : ∃ ls, lexemes body.words = ⟨.op, ['\x7b']⟩ :: ls := by
    have hempty : Legible emptyBlock [] :=
      legible_of_blanks (show legibleInBlanks emptyBlock [] = true by decide +kernel)
    have hrest : Legible ws tail := by
      rw [← hbody, legible_append]
      exact ⟨hparts.1.2, hparts.2⟩
    obtain ⟨us, hus, -⟩ := exists_words_append hempty hrest ht (by
      rw [← hblock]
      rfl)
    rw [← hbody] at hus
    obtain ⟨b, bs, hb⟩ := List.exists_cons_of_ne_nil body.words_ne_nil
    rw [hb] at hus ⊢
    obtain ⟨rfl, -⟩ := List.cons.inj hus
    exact ⟨lexemes bs, rfl⟩
  rw [hls] at hr
  exact ⟨_, hcaption, hr.isType (by rw [Returns.latest, hannotations, hkey]; rfl) hw hlegible⟩

/-! ## Another return type -/

/-- The node behind the parameters of a function. -/
def Node.returns? (n : Node) : Option Node :=
  (n.firstChild? .functionSignature).bind (·.firstChild? .returnTypeDescriptor)

/-- Whether a text can stand in place of the type of a node, without running into what is around
it: tokens stay apart, and a colon in front does not go on with the name of an annotation. -/
def Node.admits (source t : Text) (descriptor : Node) : Bool :=
  (descriptor.firstChild? .typeDescriptor).all fun type =>
    Text.keepsApart (source.take type.start) t (source.drop type.stop)
      && (t.head? != some ':' || (descriptor.childrenOf [.annotationAttachment]).isEmpty)

/-- Whether a type can stand where a return type is asked for. -/
def Request.Admits (source t : Text) : Request → Prop
  | returnType _ ctx => ∀ n ∈ ctx.node.firstChild? .returnTypeDescriptor, n.admits source t = true
  | imports _ | params _ _ | record _ _ | block _ _ => True

namespace Phrase

/-- Annotations do not see what comes behind them if it cannot belong to them. -/
theorem Attachment.AllValid.of_free {as : List Attachment} {rest rest' : List Lexeme}
    (h : AllValid as rest) (hsign : Phrase.startsOp ['@'] rest' = false)
    (hbrace : Phrase.startsOp ['\x7b'] rest' = false)
    (hcolon : as ≠ [] → Phrase.startsOp [':'] rest' = false) : AllValid as rest' := by
  induction as with
  | nil => exact hsign
  | cons a as ih =>
    obtain ⟨ha, has⟩ := h
    have hfirst := hcolon (by simp)
    have hnext : ∀ s ∈ [[':'], ['\x7b']],
        Phrase.startsOp s (lexemes (as.flatMap words) ++ rest') = false := by
      cases as with
      | nil => simpa using ⟨hfirst, hbrace⟩
      | cons b bs =>
        have hb : b.sign.lexeme.isOp ['@'] = true := has.1.sign
        simp only [Lexeme.isOp, Bool.and_eq_true, beq_iff_eq] at hb
        simp [Phrase.startsOp, Attachment.words, Lexeme.isOp, hb.2]
    simp only [List.forall_mem_cons, List.not_mem_nil, false_implies, implies_true, and_true]
      at hnext
    refine ⟨⟨ha.sign, ha.name, ha.qualified.imp_left fun hq => ⟨hq.1, ?_⟩,
      ha.record.imp_left fun hr => ⟨hr.1, hnext.2⟩⟩, ih has fun _ => hfirst⟩
    rcases ha.record with ⟨hr, -⟩ | ⟨g, hr, hg⟩
    · rw [hr]
      simp [startsQualified, hnext.1]
    · rw [hr]
      simp [startsQualified, Phrase.startsOp, Group.words, hg.opening_eq, Lexeme.isOp,
        Bracket.opening]

/-- A type ends in front of every body. -/
theorem Body.Valid.stops {b : Body} (h : b.Valid) {p : Option Lexeme}
    (hp : opensTypeBody p = false) : Stops typeRule p (lexemes b.words) := by
  cases b with
  | block g => exact typeRule_brace h.opening hp
  | clause sign content semicolon =>
    obtain ⟨hsign | hsign, -⟩ := h
    · exact if_pos (by rw [hsign]; rfl)
    · exact if_pos (by simp [hsign])
  | bare semicolon =>
    have hs : semicolon.lexeme.isOp [';'] = true := h
    exact if_pos (by simp [hs])

/-- A return type with another type, behind the gap of the old one. -/
def Returns.retyped (r : Returns) (gap : Text) (ws : List Word) : Returns :=
  { r with type := pad gap ws }

theorem Returns.Valid.retyped {r : Returns} {rest : List Lexeme} (h : r.Valid rest)
    {ws : List Word} (hw : IsType ws)
    (hcolon : r.annotations ≠ [] → startsOp [':'] (lexemes ws) = false) {b : Body} (hb : b.Valid)
    (gap : Text) : (r.retyped gap ws).Valid (lexemes b.words) := by
  have hne : lexemes ws ≠ [] := by simpa [lexemes] using hw.ne_nil
  have hlex : lexemes (r.retyped gap ws).type = lexemes ws := lexemes_pad gap ws
  refine ⟨h.keyword, ?_, ?_, ?_, ?_⟩
  · rw [hlex]
    refine h.annotations.of_free ?_ ?_ fun ha => ?_
    · rw [startsOp_append hne, hw.noSign]
    · rw [startsOp_append hne, hw.noBrace]
    · rw [startsOp_append hne, hcolon ha]
  · intro hnil
    rw [hnil] at hlex
    exact hne hlex.symm
  · rw [hlex]
    exact hw.passes _
  · rw [hlex]
    exact hb.stops (hw.closed _)

theorem latest_of_ne_nil {ls : List Lexeme} (h : ls ≠ []) (p q : Option Lexeme) :
    latest p ls = latest q ls := by
  cases ls with
  | nil => exact absurd rfl h
  | cons l ls => rfl

/-- What is ahead of a keyword is decided by its first two characters. -/
theorem Returns.Valid.ahead_keyword {r : Returns} {rest : List Lexeme} (h : r.Valid rest)
    (u v : Text) : ahead (spell [r.keyword] ++ u) = ahead (spell [r.keyword] ++ v) := by
  have hkey := h.keyword
  simp only [Lexeme.isWord, Bool.and_eq_true, beq_iff_eq] at hkey
  have hlen : 2 ≤ (spell [r.keyword]).length := by
    have : "returns".toList.length = 7 := by decide
    simp only [spell_cons, spell_nil, hkey.2, List.length_append]
    omega
  have hne : ∀ s : Text, s.length ≤ 1 → spell [r.keyword] ≠ s := by
    rintro s hs rfl
    omega
  rw [ahead_append (hne _ (by simp)) (hne _ (by simp)) (hne _ (by simp)),
    ahead_append (hne _ (by simp)) (hne _ (by simp)) (hne _ (by simp))]

/-- A return type and a body can stand for others if the type is kept apart. -/
theorem Returns.mends_retyped {r : Returns} {rest : List Lexeme} (h : r.Valid rest) {t gap : Text}
    {ws : List Word} (hw : ws ≠ []) {b b' : Body}
    (hfront : Legible (r.keyword :: r.annotations.flatMap Attachment.words)
      (gap ++ (spell ws ++ (spell b.words ++ t))))
    (htype : Legible (pad gap ws) (spell b.words ++ t)) (hm : Mends t b.words b'.words) :
    Mends t (r.words ++ b.words) ((r.retyped gap ws).words ++ b'.words) := by
  have hsplit : ∀ (r' : Returns) (vs : List Word), r'.words ++ vs
      = (r'.keyword :: r'.annotations.flatMap Attachment.words) ++ (r'.type ++ vs) := by
    intro r' vs
    simp [Returns.words]
  refine ⟨fun t' ht => ?_, fun t' _ => ?_, rfl, fun p => ?_⟩
  · have hbody := hm.ahead t' ht
    rw [hsplit, legible_append, legible_append]
    refine ⟨?_, htype.of_ahead hbody.symm, hm.legible t' ht⟩
    have htext : spell ((r.retyped gap ws).type ++ b'.words) ++ t'
        = gap ++ spell ws ++ (spell b'.words ++ t') := by
      rw [spell_append, retyped, spell_pad hw]
      simp
    rw [htext]
    refine hfront.of_ahead ?_
    rw [← List.append_assoc]
    exact ahead_congr hbody.symm _
  · have hkeyword : ∀ (r' : Returns) (u : Text), r'.keyword = r.keyword → spell r'.words ++ u
        = spell [r.keyword]
          ++ (spell (r'.annotations.flatMap Attachment.words ++ r'.type) ++ u) := by
      intro r' u hr
      simp [Returns.words, hr]
    rw [spell_append, spell_append, List.append_assoc, List.append_assoc,
      hkeyword (r.retyped gap ws) _ rfl, hkeyword r _ rfl]
    exact h.ahead_keyword _ _
  · have hne : lexemes b.words ≠ [] := by simpa [lexemes] using b.words_ne_nil
    rw [lexemes_append, lexemes_append, latest_append, latest_append, hm.last]
    exact latest_of_ne_nil hne _ _

/-- A node of a return type without annotations is one of a type without annotations. -/
theorem Returns.annotations_eq_nil {r : Returns} {before next : Text}
    (h : (r.node before next).childrenOf [.annotationAttachment] = []) : r.annotations = [] := by
  have hkinds := map_kind_nodesAll before next (.leaf .keyword r.keyword ::
    (r.annotations.map Attachment.branch ++ [.span .typeDescriptor r.type]))
  cases ha : r.annotations with
  | nil => rfl
  | cons a as =>
    have hmem : Kind.annotationAttachment ∈ (r.node before next).children.map (·.kind) := by
      show Kind.annotationAttachment ∈ (nodesAll _ _ _).map (·.kind)
      rw [hkinds, ha]
      simp [kinds, leaf, Attachment.branch, span]
    obtain ⟨n, hn, hk⟩ := List.mem_map.1 hmem
    have hin : n ∈ (r.node before next).childrenOf [.annotationAttachment] :=
      List.mem_filter.2 ⟨hn, by simp [hk]⟩
    rw [h] at hin
    cases hin

theorem IsType.head?_spell {ws : List Word} (h : IsType ws)
    (hc : startsOp [':'] (lexemes ws) = true) : (spell ws).head? = some ':' := by
  obtain ⟨w, vs, rfl⟩ := List.exists_cons_of_ne_nil h.ne_nil
  have hflush : w.gap = [] := h.flush
  have hop : w.lexeme.isOp [':'] = true := hc
  simp only [Lexeme.isOp, Bool.and_eq_true, beq_iff_eq] at hop
  rw [spell_cons, hflush, hop.2]
  rfl

/-- The type that is put in place of another is written as it is given. -/
theorem IsType.caption_retyped {ws : List Word} (h : IsType ws) (r : Returns) (gap : Text) :
    caption (r.retyped gap ws).type = spell ws := by
  obtain ⟨w, vs, rfl⟩ := List.exists_cons_of_ne_nil h.ne_nil
  have hflush : w.gap = [] := h.flush
  simp [Returns.retyped, Lexer.pad, caption, hflush]

/-- What is asked of a text in place of a type, by what is around the type. -/
theorem Returns.admits_node {r : Returns} (htype : r.type ≠ []) {source before next rest t : Text}
    (hs : source = before ++ spell (r.keyword :: r.annotations.flatMap Attachment.words)
      ++ spell r.type ++ rest) :
    (r.node before next).admits source t
      = (Text.keepsApart (before ++ spell (r.keyword :: r.annotations.flatMap Attachment.words)
          ++ gapBefore next r.type) t rest
        && (t.head? != some ':'
          || ((r.node before next).childrenOf [.annotationAttachment]).isEmpty)) := by
  generalize hfront : before ++ spell (r.keyword :: r.annotations.flatMap Attachment.words) = front
    at hs
  have hcaption := gapBefore_caption htype next
  have htake : source.take (front ++ gapBefore next r.type).length
      = front ++ gapBefore next r.type := by
    rw [hs, ← hcaption, ← List.append_assoc, List.append_assoc, List.take_left]
  have hdrop : source.drop (front ++ spell r.type).length = rest := by
    rw [hs, List.drop_left]
  rw [Node.admits, firstChild?_of_child (r.child_type _ _)]
  simp only [Option.all_some, Returns.typeNode, nodeOver, hfront, htake, hdrop]

/-- What is around the type of a resource can be read with another type in its place. -/
theorem Definition.legible_retyped {d : Definition} {source before next t : Text}
    (hd : Placed source before d.words t) {r : Returns} (hr : d.function.signature.returns = some r)
    (htype : r.type ≠ []) {ws : List Word} (hw : IsType ws)
    (h : (r.node (before ++ spell d.front ++ spell d.function.signature.params.words)
      next).admits source (spell ws) = true) :
    Legible (r.keyword :: r.annotations.flatMap Attachment.words)
        (gapBefore next r.type ++ (spell ws ++ (spell d.function.body.words ++ t)))
      ∧ Legible (pad (gapBefore next r.type) ws) (spell d.function.body.words ++ t)
      ∧ (r.annotations ≠ [] → startsOp [':'] (lexemes ws) = false) := by
  obtain ⟨pre, rfl, hl⟩ := hd.exists_words
  have hwords : pre ++ d.words = (pre ++ (d.front ++ (d.function.signature.params.words
      ++ r.keyword :: r.annotations.flatMap Attachment.words))) ++ (r.type
        ++ d.function.body.words) := by
    rw [words_eq]
    simp [Signature.words, Signature.returnsWords, hr, Returns.words]
  rw [hwords] at hl
  obtain ⟨hlfront, hlbody⟩ := legible_append.1 hl
  have hltype := (legible_append.1 hlbody).1
  have hg : Gap (gapBefore next r.type) := by
    obtain ⟨w, type, hcons⟩ := List.exists_cons_of_ne_nil htype
    rw [hcons] at hltype ⊢
    exact hltype.1
  have hsource : source = spell pre ++ spell d.front ++ spell d.function.signature.params.words
      ++ spell (r.keyword :: r.annotations.flatMap Attachment.words) ++ spell r.type
      ++ (spell d.function.body.words ++ t) := by
    rw [hd.text, ← List.append_assoc, ← spell_append, hwords]
    simp
  rw [Returns.admits_node htype hsource, Bool.and_eq_true] at h
  obtain ⟨hkept, hcolon⟩ := h
  rw [← spell_append, ← spell_append, ← spell_append, List.append_assoc, List.append_assoc]
    at hkept
  have hfrontGap := hlfront
  rw [spell_append, ← gapBefore_caption htype next, List.append_assoc, List.append_assoc]
    at hfrontGap
  obtain ⟨hread, hpad⟩ :=
    Text.legible_of_keepsApart hkept hfrontGap.of_append hg hw.legible hw.ne_nil
  rw [legible_append, legible_append, legible_append] at hread
  refine ⟨hread.2.2.2, hpad, fun ha => ?_⟩
  by_contra hop
  rw [hw.head?_spell (by simpa using hop)] at hcolon
  exact ha (Returns.annotations_eq_nil (by simpa using hcolon))

/-- A resource with another return type, if it has one. -/
def Definition.Retyped (t : Text) (d d' : Definition) : Prop :=
  d'.returnType? = d.returnType?.map fun _ => t

theorem Definition.map_of_retyped {t : Text} {ds ds' : List Definition}
    (h : List.Forall₂ (Retyped t) ds ds') :
    ds'.map (fun d => d.returnType?.map some)
      = ds.map fun d => d.returnType?.map fun _ => some t := by
  induction h with
  | nil => rfl
  | cons hd _ ih =>
    rw [List.map_cons, List.map_cons, ih, hd, Option.map_map]
    rfl

/-- A signature with the request that is added and another return type, in front of a body. -/
theorem Definition.exists_retyped {g : Generator} {ws : List Word} (hw : IsType ws)
    (hp : ∀ signature ctx, g.params signature ctx = .ok (Fragment.params signature))
    (ht : ∀ type ctx, g.returnType type ctx = .ok (spell ws)) {d : Definition} {kind : Kind}
    (h : d.Valid memberQualifiers kind) {source before next t : Text} {ctx : Context}
    (hd : Placed source before d.words t)
    (ha : ∀ r ∈ (d.function.signature.segments (before ++ spell d.front)
      (gapBefore next d.function.body.words) ctx).flatMap requests, r.Admits source (spell ws))
    (hctx : ctx.node = d.function.signature.node (before ++ spell d.front)
      (gapBefore next d.function.body.words)) {b : Body} (hb : b.Valid)
    (hm : Mends t d.function.body.words b.words) :
    ∃ s : Signature, s.Valid (lexemes b.words)
      ∧ Mends t (d.function.signature.words ++ d.function.body.words) (s.words ++ b.words)
      ∧ patchedAll g (d.function.signature.segments (before ++ spell d.front)
        (gapBefore next d.function.body.words) ctx) = .ok (spell s.words)
      ∧ s.returns.map (caption ·.type)
        = d.function.signature.returns.map fun _ => spell ws := by
  have hlegible := hd.legible
  rw [words_eq, legible_append, legible_append] at hlegible
  have hsig := h.function.signature
  obtain ⟨p', hv, hmp, hspell, -⟩ :=
    exists_requestParams hsig.params (legible_append.1 hlegible.2.1).1
  have hf : g.params (d.function.signature.node (before ++ spell d.front)
      (gapBefore next d.function.body.words)) ctx = .ok (Fragment.paramsFor d.parameters) := by
    rw [hp, Fragment.params_eq, Signature.parameters_node]
    rfl
  cases hr : d.function.signature.returns with
  | none =>
    obtain ⟨hvs, hms, hps⟩ := hsig.mend_params hlegible.2.1 hf (by simp [hr]) hv hmp hspell
    have hne : lexemes d.function.body.words ≠ [] := by
      simpa [lexemes] using d.function.body.words_ne_nil
    exact ⟨{ d.function.signature with params := p' }, hvs.congr hne hm.first, hms.append hm, hps,
      by simp [hr]⟩
  | some r =>
    have hreturns := hsig.returns
    rw [hr] at hreturns
    have hrv : r.Valid (lexemes d.function.body.words) := hreturns
    have hadmits : (r.node (before ++ spell d.front ++ spell d.function.signature.params.words)
        (gapBefore next d.function.body.words)).admits source (spell ws) = true := by
      refine ha (.returnType (r.typeNode (before ++ spell d.front
        ++ spell d.function.signature.params.words) (gapBefore next d.function.body.words)) ctx)
        (by simp [Signature.segments, requests, hr]) _ ?_
      rw [hctx, Signature.child_returns, hr]
      rfl
    obtain ⟨hfront, htype, hcolon⟩ := legible_retyped hd hr hrv.ne_nil hw hadmits
    generalize hgap : gapBefore (gapBefore next d.function.body.words) r.type = gap
      at hfront htype
    refine ⟨⟨p', some (r.retyped gap ws)⟩, ⟨hv, hrv.retyped hw hcolon hb gap⟩, ?_, ?_, ?_⟩
    · have hall := Mends.append (t := t) (by simpa [Signature.returnsWords, hr] using hmp)
        (Returns.mends_retyped hrv hw.ne_nil hfront htype hm)
      simpa [Signature.words, Signature.returnsWords, hr] using hall
    · rw [Signature.patchedAll_segments hf fun r _ => ht _ _, hr]
      simp [Signature.words, Signature.returnsWords, hspell, hgap, Returns.words, Returns.retyped,
        spell_pad hw.ne_nil, Definition.parameters]
    · simp [hw.caption_retyped]

/-- A resource with the code that was asked for and another return type. -/
theorem Definition.remakes_retyped {g : Generator} {ws : List Word} (hw : IsType ws)
    (hp : ∀ signature ctx, g.params signature ctx = .ok (Fragment.params signature))
    (ht : ∀ type ctx, g.returnType type ctx = .ok (spell ws)) (source : Text) (width : Nat) :
    Remakes g (fun r => r.AnsweredInLines g ∧ r.Admits source (spell ws)) source width
      (Retyped (spell ws)) := by
  intro d before next t ctx h hd _ ha
  have hparts := hd.legible
  rw [words_eq, legible_append, legible_append] at hparts
  rw [segments, List.flatMap_cons, List.flatMap_append, List.forall_mem_append,
    List.forall_mem_append] at ha
  obtain ⟨b, hb, hmb, hpb⟩ := Body.exists_lines h.function.body hparts.2.2 fun r hr =>
    (ha.2.2 r hr).1
  obtain ⟨s, hs, hms, hps, hr⟩ := exists_retyped hw hp ht h hd (fun r hr => (ha.2.1 r hr).2) rfl
    hb hmb
  refine ⟨d.remade s b, rfl, h.remade hs hb, mends_remade hd.legible hms,
    patchedAll_remade hps hpb, ?_⟩
  rw [Retyped, returnType?, returnType?, Option.map_map]
  exact hr

end Phrase

/-! ## Patched sources -/

open Fragment

/-- A body has the method and the paths of its resource. -/
theorem Context.values_push {ctx : Context} {body : Node} (h : body.kind = .functionBodyBlock) :
    (ctx.push body).resourceMethod = ctx.resourceMethod
      ∧ (ctx.push body).resourcePath = ctx.resourcePath
      ∧ (ctx.push body).servicePath = ctx.servicePath := by
  have hresource : (ctx.push body).resource? = ctx.resource? := by
    rw [resource?, nearest?_push, h]
    rfl
  have hservice : (ctx.push body).service? = ctx.service? := by
    rw [service?, nearest?_push, h]
    rfl
  simp only [resourceMethod, resourcePath, servicePath, hresource, hservice, and_self]

/-- The margins that can be counted and held. -/
def Request.Holds (width : Int) (r : Request) : Prop :=
  -maxCount - 1 ≤ r.margin width ∧ r.margin width ≤ maxMargin

instance (width : Int) (r : Request) : Decidable (r.Holds width) :=
  inferInstanceAs (Decidable (_ ∧ _))

/-- A return type that is given becomes that of every resource that has one, where it is kept apart
from what is around it and the values of records are quotable. -/
theorem Patch.parse_retyped {source : Text} {tree : Tree} (h : Tree.parse source = .ok tree)
    {width : Int} (hw : 0 < width) (fs : FileSystem) (here : List Text) {t : Text}
    (ht : t.IsReturnType) (indentWidth : Int)
    (hvalues : ∀ ctx ∈ tree.resources, ctx.resourceMethod.quotable = true
      ∧ '\x60' ∉ ctx.resourcePath ∧ ctx.servicePath.quotable = true)
    (hrequest : ∀ ctx ∈ tree.resources, ∀ p ∈ ctx.node.parameters, requestName? p = none)
    (hadmits : ∀ ctx ∈ tree.resources, ∀ n ∈ ctx.node.returns?, n.admits source t = true)
    (hmargin : ∀ {requests : List Request}, Patch.requests tree width.toNat = .ok requests →
      ∀ r ∈ requests, r.Holds indentWidth) :
    let g := Generator.templated (SnippetLocation.bundled.read fs here)
      ⟨[], [], some t, indentWidth⟩
    ∃ patched tree', Patch.applied tree g width = .ok patched ∧ Tree.parse patched = .ok tree'
      ∧ tree'.resources.map (fun ctx => ctx.node.returnType?.map (·.value))
        = tree.resources.map fun ctx => ctx.node.returnType?.map fun _ => some t := by
  intro g
  obtain ⟨ws, rfl, hws⟩ := ht.exists_words
  have hsnippets := Snippet.read_bundled fs here
  have hkind : tree.root.kind = .modulePart := by
    obtain ⟨items, tail, -, -, -, -, rfl⟩ := Tree.exists_of_parse h
    rfl
  have hname : ∀ ctx ∈ tree.resources, requestName ctx = requestParam := by
    intro ctx hctx
    rw [requestName_eq (Tree.kind_of_mem_resources hctx), requestNameFor,
      List.findSome?_eq_none_iff.2 (hrequest ctx hctx)]
    rfl
  have hq : ∀ {requests : List Request}, Patch.requests tree width.toNat = .ok requests →
      ∀ r ∈ requests, r.AnsweredInLines g ∧ r.Admits source (spell ws) := by
    intro requests hrequests r hr
    have hm := hmargin hrequests r hr
    -- Every request is made at a resource, so what is known of resources answers it.
    cases Request.StandsIn.of_mem hkind hrequests hr with
    | imports => exact ⟨trivial, trivial⟩
    | params _ _ => exact ⟨trivial, trivial⟩
    | returnType hctx hs hd ht =>
      refine ⟨trivial, fun n hn => hadmits _ hctx n ?_⟩
      rw [Node.returns?, hs]
      exact hn
    | record level hctx hk =>
      obtain ⟨hmethod, hpath, hservice⟩ := Context.values_push hk
      obtain ⟨hv₁, hv₂, hv₃⟩ := hvalues _ hctx
      refine ⟨exists_record_lines hsnippets hm.1 hm.2 ?_ ?_ ?_, trivial⟩
      · rwa [hmethod]
      · rwa [hpath]
      · rwa [hservice]
    | block level hctx hk =>
      refine ⟨exists_block_lines hsnippets rfl rfl hm.1 hm.2 ?_, trivial⟩
      rw [requestName_push hk, hname _ hctx]
  obtain ⟨imports, hi, himports⟩ := exists_closed_imports hsnippets (Context.root tree.root)
  obtain ⟨patched, tree', ds, ds', happlied, hparse, hds, hnodes⟩ := Patch.exists_remade h hw
    (Definition.remakes_retyped hws (fun _ _ => rfl) (fun _ _ => rfl) source _) hq hi himports
  refine ⟨patched, tree', happlied, hparse, ?_⟩
  -- Both sides are lists over the definitions: of their types, and of whether they have one.
  have hkept := (hnodes _ (fun n => n.returnType?.map fun _ => some (spell ws))
    (fun d => d.returnType?.map fun _ => some (spell ws)) fun d before next => by
      have hnode := congrArg (Option.map fun _ => some (spell ws))
        (d.returnType?_node .resourceAccessorDefinition before next)
      rwa [Option.map_map, Option.map_map] at hnode).1
  have hnew := (hnodes _ (fun n => n.returnType?.map (·.value)) (fun d => d.returnType?.map some)
    fun d before next => d.returnType?_node _ before next).2
  rw [hkept, hnew, Definition.map_of_retyped hds]

theorem Patch.parse_retyped_resources :
    let source : Text :=
      "service / on x \x7b resource function get a(int b) returns @c int \x7b \x7d".toList
        ++ " resource function get d() \x7b \x7d \x7d".toList
    let t : Text := "json|error".toList
    let g := Generator.templated (SnippetLocation.bundled.read ⟨[]⟩ []) ⟨[], [], some t, 4⟩
    ∃ tree patched tree', Tree.parse source = .ok tree ∧ Patch.applied tree g 4 = .ok patched
      ∧ Tree.parse patched = .ok tree'
      ∧ tree'.resources.map (fun ctx => ctx.node.returnType?.map (·.value))
        = [some (some t), none] := by
  intro source t g
  have hrun : ((Tree.parse source).toOption.any fun tree =>
      (tree.resources.all fun ctx => ctx.resourceMethod.quotable
        && !ctx.resourcePath.contains '\x60' && ctx.servicePath.quotable
        && ctx.node.parameters.all (requestName? · = none)
        && ctx.node.returns?.all (·.admits source t))
      && (Patch.requests tree 4).toOption.all (·.all fun r => decide (r.Holds 4))
      && tree.resources.map (fun ctx => ctx.node.returnType?.map fun _ => some t)
        == [some (some t), none]) = true := by
    simp only [source, t]
    repeat rw [String.toList_ofList]
    decide +kernel
  have htype : t.IsReturnType := by decide +kernel
  obtain ⟨tree, hparse, hrun⟩ := exists_of_any hrun
  simp only [Bool.and_eq_true, List.all_eq_true, Bool.not_eq_true', Bool.eq_false_iff, ne_eq,
    List.contains_iff_mem, decide_eq_true_eq, Option.all_eq_true, beq_iff_eq] at hrun
  obtain ⟨⟨hresources, hholds⟩, hsome⟩ := hrun
  obtain ⟨patched, tree', happlied, hparse', hall⟩ := Patch.parse_retyped hparse
    (show (0 : Int) < 4 by decide) ⟨[]⟩ [] htype 4
    (fun ctx hctx => by
      obtain ⟨⟨⟨⟨hmethod, hpath⟩, hservice⟩, -⟩, -⟩ := hresources ctx hctx
      exact ⟨hmethod, hpath, hservice⟩)
    (fun ctx hctx => (hresources ctx hctx).1.2) (fun ctx hctx => (hresources ctx hctx).2)
    fun hrequests => hholds _ (congrArg Except.toOption hrequests)
  exact ⟨tree, patched, tree', hparse, happlied, hparse', hall.trans hsome⟩

/-- A return type runs into the keyword in front of it where the old one is a bracket that follows
the keyword directly. -/
theorem Patch.parse_retyped_glued :
    let source : Text :=
      "service / on x \x7b resource function get a() returns() => (); \x7d".toList
    let patched : Text :=
      "import ballerina/http;\nservice / on x \x7b resource function get a(".toList
        ++ "http:Request incomingRequest) returnsint => (); \x7d".toList
    let t : Text := "int".toList
    let g := Generator.templated (SnippetLocation.bundled.read ⟨[]⟩ []) ⟨[], [], some t, 4⟩
    t.IsReturnType ∧ ∃ tree, Tree.parse source = .ok tree
      ∧ (∀ ctx ∈ tree.resources, ctx.resourceMethod.quotable = true ∧ '\x60' ∉ ctx.resourcePath
        ∧ ctx.servicePath.quotable = true ∧ ctx.node.parameters = [])
      ∧ Patch.applied tree g 4 = .ok patched ∧ ∀ tree', Tree.parse patched ≠ .ok tree' := by
  intro source patched t g
  have htype : t.IsReturnType := by decide +kernel
  have hrun : ((Tree.parse source).toOption.any fun tree =>
      tree.source == source && tree.root.kind == .modulePart
      && (tree.root.childrenOf [.importDeclaration]).isEmpty
      && (tree.resources.all fun ctx => ctx.resourceMethod.quotable
        && !ctx.resourcePath.contains '\x60' && ctx.servicePath.quotable
        && ctx.node.parameters.isEmpty)
      && (Patch.sites tree 4 >>= List.mapM (Site.edits g)).toOption
        == some [[Edit.insert 41 "http:Request incomingRequest".toList],
          [Edit.replace 50 52 t]]) = true := by
    simp only [source, t]
    repeat rw [String.toList_ofList]
    decide +kernel
  have herror : (Tree.parse patched).toOption = none := by
    simp only [patched]
    repeat rw [String.toList_ofList]
    decide +kernel
  obtain ⟨tree, hparse, hrun⟩ := exists_of_any hrun
  simp only [Bool.and_eq_true, List.all_eq_true, Bool.not_eq_true', Bool.eq_false_iff, ne_eq,
    List.contains_iff_mem, List.isEmpty_iff, beq_iff_eq] at hrun
  obtain ⟨⟨⟨⟨hsource, hkind⟩, hnone⟩, hresources⟩, hsites⟩ := hrun
  have hmodules : (Context.root tree.root).importedModules = [] := by
    simp [Context.importedModules, Context.module?, Context.nearest?, Context.chain, Context.root,
      hkind, hnone]
  have himports : g.imports (Context.root tree.root) = .ok "import ballerina/http;\n".toList := by
    refine (imports_eq (Snippet.read_bundled ⟨[]⟩ []) _).trans ?_
    rw [hmodules]
    rfl
  let es : List Edit := [Edit.insert 0 "import ballerina/http;\n".toList,
    Edit.insert 41 "http:Request incomingRequest".toList, Edit.replace 50 52 t]
  have hedits : Patch.edits tree g 4 = .ok es := by
    rw [Patch.edits, if_neg (by decide)]
    show (Patch.sites tree 4 >>= fun ss => List.mapM (Site.edits g) ss >>= _) = _
    rw [← bind_assoc, ok_of_toOption hsites]
    simp only [himports, bind, Except.bind, pure, Except.pure]
    rfl
  have hsort : Edit.sort es = es := List.mergeSort_of_pairwise (by decide)
  have happlied : Edit.apply source es = .ok patched := by
    rw [Edit.apply, hsort]
    simp only [es, source, patched, t]
    repeat rw [String.toList_ofList]
    decide +kernel
  refine ⟨htype, tree, hparse, fun ctx hctx => ?_, ?_,
    fun tree' htree => ?_⟩
  · obtain ⟨⟨⟨hmethod, hpath⟩, hservice⟩, hparameters⟩ := hresources ctx hctx
    exact ⟨hmethod, hpath, hservice, hparameters⟩
  · simp only [Patch.applied, hedits, hsource, bind, Except.bind, happlied]
    rfl
  · rw [htree] at herror
    cases herror

end BalMediation
