import BalMediation.Proofs.Reading

/-!
# Reading modules

The readers of members, services, declarations of imports and whole modules. A source has a syntax
tree if and only if its words are those of valid members, and then its tree is the one that they
leave (`parse_of_valid`, `exists_of_parse`).
-/

namespace BalMediation

namespace Phrase.Grammar

variable {M : Type}

/-- A grammar describes a reader that takes its members and nothing else. -/
structure Describes (G : Grammar M) (read : Cursor → Except Fault (Shape × Cursor)) : Prop where
  complete : ∀ {p : Option Lexeme} {m : M} {rest : List Lexeme}, G.Valid p m rest → ∀ i : Nat,
    ∃ s, read ⟨i, p, lexemes (G.branch m).words ++ rest⟩
        = .ok (s, Cursor.past i p (G.branch m).words rest)
      ∧ (G.branch m).shapes i = [s]
  sound : ∀ {i : Nat} {p : Option Lexeme} {ws : List Word} {r : Shape × Cursor},
    read ⟨i, p, lexemes ws⟩ = .ok r →
      ∃ (m : M) (rest : List Word), ws = (G.branch m).words ++ rest ∧ G.Valid p m (lexemes rest)

end Phrase.Grammar

namespace Cursor

open Phrase

/-! ## Members -/

section Members

variable {M : Type} {G : Grammar M} {item : Reader} {closed : Cursor → Bool}

theorem members_semicolon {i : Nat} {p : Option Lexeme} {l : Lexeme} {ls : List Lexeme}
    (hsemi : l.isOp [';'] = true) (hopen : closed ⟨i, p, l :: ls⟩ = false) :
    members item closed ⟨i, p, l :: ls⟩ = members item closed ⟨i + 1, some l, ls⟩ := by
  rw [members]
  simp only [atEnd_cons, Bool.false_eq_true, dif_neg, not_false_iff, hopen, if_false, atOp_cons,
    hsemi, if_true, advance_index_cons]

theorem members_member {i : Nat} {p : Option Lexeme} {l : Lexeme} {ls : List Lexeme} {s : Shape}
    {after last : Cursor} {more : List Shape} (hsemi : l.isOp [';'] = false)
    (hcl : l.closes? = none) (hopen : closed ⟨i, p, l :: ls⟩ = false)
    (hread : item.read ⟨i, p, l :: ls⟩ = .ok (s, after))
    (hmore : members item closed after = .ok (more, last)) :
    members item closed ⟨i, p, l :: ls⟩ = .ok (s :: more, last) := by
  have hreject : rejectClosing ⟨i, p, l :: ls⟩ = .ok () := by simp [rejectClosing, head?, hcl]
  rw [members]
  simp only [atEnd_cons, hopen, atOp_cons, hsemi, Bool.false_eq_true, dif_neg, not_false_iff,
    if_false, hreject]
  split
  · rename_i heq
    rw [hread] at heq
    cases heq
  · rename_i heq
    rw [hread] at heq
    cases heq
    rw [hmore]

theorem members_of_valid (hG : G.Describes item.read)
    (hclosed : ∀ c, closed c = true → ∃ l ∈ c.head?, l.closes?.isSome = true)
    {items : List (Item M)} {p : Option Lexeme} {rest : List Lexeme}
    (h : G.AllValid p items rest)
    (hrest : rest = [] ∨ ∀ i q, closed ⟨i, q, rest⟩ = true) (i : Nat) :
    members item closed ⟨i, p, lexemes (G.words items) ++ rest⟩
      = .ok (Branch.shapesAll i (items.map G.itemBranch), past i p (G.words items) rest) := by
  have hopen : ∀ (i : Nat) (p : Option Lexeme) (l : Lexeme) (ls : List Lexeme), l.closes? = none →
      closed ⟨i, p, l :: ls⟩ = false := by
    intro i p l ls hl
    refine Bool.eq_false_iff.2 fun hc => ?_
    obtain ⟨l', hl', hs⟩ := hclosed _ hc
    obtain rfl : l = l' := Option.some.inj hl'
    simp [hl] at hs
  induction items generalizing i p with
  | nil =>
    rw [members]
    rcases hrest with rfl | hrest
    · simp [past]
    · simp [past, hrest]
  | cons item' items ih =>
    cases item' with
    | semicolon w =>
      obtain ⟨hw, hitems⟩ := h
      rw [Grammar.words_semicolon, lexemes_cons, List.cons_append,
        members_semicolon hw (hopen _ _ _ _ (plain_of_semicolon hw).2), ih hitems]
      simp [Grammar.itemBranch, past, Nat.add_assoc, Nat.add_comm]
    | member m =>
      obtain ⟨⟨l, hl, hsemi, hcl⟩, hm, hitems⟩ := h
      obtain ⟨s, hread, hs⟩ := hG.complete hm i
      have hmore := ih hitems (i + (G.branch m).words.length)
      obtain ⟨ls, hls⟩ := List.head?_eq_some_iff.1 hl
      rw [hls] at hread
      rw [Grammar.words_member, lexemes_append, List.append_assoc, hls]
      refine (members_member hsemi hcl (hopen _ _ _ _ hcl) hread hmore).trans ?_
      rw [past_append]
      simp [Grammar.itemBranch, hs]

theorem exists_of_members (hG : G.Describes item.read) {i : Nat} {p : Option Lexeme}
    {ws : List Word} {ss : List Shape} {c : Cursor}
    (h : members item closed ⟨i, p, lexemes ws⟩ = .ok (ss, c)) :
    ∃ (items : List (Item M)) (rest : List Word), ws = G.words items ++ rest
      ∧ G.AllValid p items (lexemes rest) ∧ c.rest = lexemes rest
      ∧ (rest = [] ∨ closed c = true) := by
  generalize hd : (⟨i, p, lexemes ws⟩ : Cursor) = d at h
  fun_induction members item closed d generalizing i p ws ss c with
  | case1 d hend =>
    subst hd
    cases h
    cases ws with
    | nil => exact ⟨[], [], rfl, trivial, rfl, .inl rfl⟩
    | cons w ws => simp at hend
  | case2 d hend hc =>
    subst hd
    cases h
    exact ⟨[], ws, rfl, trivial, rfl, .inr hc⟩
  | case3 d hend hc hat ih =>
    subst hd
    cases ws with
    | nil => simp at hend
    | cons w ws =>
      obtain ⟨items, rest, rfl, hitems, hrest⟩ := ih rfl h
      exact ⟨.semicolon w :: items, rest, by simp, ⟨hat, hitems⟩, hrest⟩
  | case4 => simp at h
  | case5 => simp at h
  | case6 => simp at h
  | case7 d hend hc hat hreject s after hread more last hm ih =>
    subst hd
    cases h
    obtain ⟨m, rest, rfl, hv⟩ := hG.sound hread
    have hlt := item.progress hread
    obtain ⟨s', hread', -⟩ := hG.complete hv i
    rw [lexemes_append, hread'] at hread
    cases hread
    obtain ⟨items, rest, rfl, hitems, hrest⟩ := ih rfl hm
    rw [lexemes_append] at hv
    refine ⟨.member m :: items, rest, by simp, ⟨?_, hv, hitems⟩, hrest⟩
    cases hw : lexemes (G.branch m).words with
    | nil => simp [past, hw] at hlt
    | cons l ls =>
      rw [lexemes_append, hw, List.cons_append] at hat hreject
      refine ⟨l, rfl, by simpa using hat, ?_⟩
      cases hcl : l.closes? with
      | none => rfl
      | some b => simp [rejectClosing, head?, hcl, fail] at hreject


end Members

/-! ## Services -/

theorem serviceMember_leading {h : Leading} {rest : List Lexeme}
    (hv : h.Valid memberQualifiers rest) (i : Nat) (p : Option Lexeme) :
    serviceMember ⟨i, p, lexemes h.words ++ rest⟩
      = if startsWord "function".toList rest then
          function h.memberKind i (Branch.shapesAll i h.branches) (past i p h.words rest)
        else otherMember i (past i p h.words rest) := by
  unfold serviceMember
  rw [annotations_leading hv]
  simp only [bind, Except.bind, qualifiers_leading hv, shapesAll_leading, atWord_past]
  rfl

theorem function_definition {allowed : List Text} {kind : Kind} {d : Definition}
    (h : d.Valid allowed kind) (rest : List Lexeme) (i : Nat) (p : Option Lexeme) :
    ∃ s, function kind i (Branch.shapesAll i d.leading.branches)
        (past i p d.leading.words (lexemes d.function.words ++ rest))
          = .ok (s, past i p d.words rest)
      ∧ (d.branch kind).shapes i = [s] := by
  refine ⟨_, ?_, by rw [Definition.branch, Branch.shapes_node]⟩
  rw [past, function_of_valid h.function, past_append]
  simp [Definition.words, Nat.add_assoc]

theorem otherMember_other {allowed : List Text} {o : Other} {p : Option Lexeme}
    {rest : List Lexeme} (h : o.Valid allowed p rest) (i : Nat) :
    ∃ s, otherMember i (past i p o.leading.words (lexemes o.core ++ rest))
          = .ok (s, past i p o.words rest)
      ∧ o.branch.shapes i = [s] := by
  refine ⟨_, ?_, by rw [Other.branch, Branch.shapes_node]⟩
  have hending := h.ending
  rw [lexemes_append, latest_append] at hending
  rw [past, Other.core, otherMember_of_valid h.content hending, past_append]
  simp [Other.words, Other.core, Nat.add_assoc]

theorem exists_other {allowed : List Text} {h : Leading} {i : Nat} {p : Option Lexeme}
    {ws : List Word} {r : Shape × Cursor} (hv : h.Valid allowed (lexemes ws))
    (hr : otherMember i (past i p h.words (lexemes ws)) = .ok r) :
    ∃ (o : Other) (rest : List Word), o.leading = h ∧ ws = o.core ++ rest
      ∧ o.Valid allowed p (lexemes rest) := by
  obtain ⟨content, e, rest, rfl, hc, he⟩ := exists_of_otherMember hr
  refine ⟨⟨h, content, e⟩, rest, rfl, rfl, ?_, hc, ?_⟩
  · rwa [lexemes_append] at hv
  · rwa [lexemes_append, latest_append]

theorem serviceGrammar_describes : serviceGrammar.Describes serviceMember where
  complete := by
    intro p m rest h i
    cases m with
    | function d =>
      have hd : d.Valid memberQualifiers d.leading.memberKind := h
      have hlead := hd.leading.congr (.of_take (d.function.take_words rest).symm)
      have hword : startsWord "function".toList (lexemes d.function.words ++ rest) = true :=
        hd.function.keyword
      obtain ⟨s, hs, hshape⟩ := function_definition hd rest i p
      refine ⟨s, ?_, hshape⟩
      rw [serviceGrammar_function, Definition.words_branch, Definition.words, lexemes_append,
        List.append_assoc, serviceMember_leading hlead, if_pos hword, hs, Definition.words]
    | other o =>
      obtain ⟨ho, hword⟩ := h
      obtain ⟨s, hs, hshape⟩ := otherMember_other ho i
      refine ⟨s, ?_, hshape⟩
      rw [← startsWord_append (o.core_ne_nil) rest] at hword
      rw [serviceGrammar_other, Other.words_branch, Other.words, lexemes_append, List.append_assoc,
        serviceMember_leading ho.leading, hword, if_neg Bool.false_ne_true, hs, Other.words]
  sound := by
    intro i p ws r h
    obtain ⟨a, ha, -⟩ := bind_ok h
    obtain ⟨lead, rest, rfl, hlead⟩ := exists_leading memberQualifiers ha
    rw [lexemes_append, serviceMember_leading hlead] at h
    split_ifs at h with hword
    · obtain ⟨f, rest, rfl, hf⟩ := exists_of_function hword h
      rw [lexemes_append] at hlead
      refine ⟨.function ⟨lead, f⟩, rest, ?_, hlead.congr (.of_take (f.take_words _)), hf⟩
      rw [serviceGrammar_function, Definition.words_branch, Definition.words, List.append_assoc]
    · obtain ⟨o, rest, rfl, rfl, ho⟩ := exists_other hlead h
      refine ⟨.other o, rest, ?_, ho, ?_⟩
      · rw [serviceGrammar_other, Other.words_branch, Other.words, List.append_assoc]
      · rw [lexemes_append, startsWord_append (o.core_ne_nil)] at hword
        simpa using hword

theorem attachPoint_past (i : Nat) (p q : Option Lexeme) (attach : List Word)
    (ls rest : List Lexeme) :
    attachPoint ⟨i, p, lexemes attach ++ ls⟩ (past i q attach rest)
      = Branch.shapesAll i (Service.attachBranches attach) := by
  have htype : (lexemes attach).takeWhile (fun l => !(l.isOp ['/'] || l.kind = .string))
      = lexemes (attach.takeWhile Service.inType) := by
    rw [lexemes, List.takeWhile_map]
    rfl
  have hsplit : attach.length
      = (attach.takeWhile Service.inType).length + (attach.dropWhile Service.inType).length := by
    rw [← List.length_append, List.takeWhile_append_dropWhile]
  simp only [attachPoint, lexemesTo_past, htype, length_lexemes]
  simp only [past]
  rw [hsplit]
  unfold Service.attachBranches
  cases attach.takeWhile Service.inType <;> cases attach.dropWhile Service.inType <;>
    simp [Nat.add_assoc]

theorem members_services {items : List (Item ServiceMember)} {p : Option Lexeme} {l : Lexeme}
    {ls : List Lexeme} (h : serviceGrammar.AllValid p items (l :: ls))
    (hl : l.isOp ['\x7d'] = true) (i : Nat) :
    members ⟨serviceMember, serviceMember_lt⟩ (·.atOp ['\x7d'])
        ⟨i, p, lexemes (serviceGrammar.words items) ++ l :: ls⟩
      = .ok (Branch.shapesAll i (items.map serviceGrammar.itemBranch),
          past i p (serviceGrammar.words items) (l :: ls)) := by
  refine members_of_valid serviceGrammar_describes ?_ h (.inr fun _ _ => hl) i
  intro c hc
  obtain ⟨i, p, _ | ⟨l, ls⟩⟩ := c
  · simp at hc
  · have hc : l.isOp ['\x7d'] = true := hc
    exact ⟨l, rfl, by rw [Lexeme.closes?_of_isOp (b := .brace) hc]; rfl⟩

theorem service_of_valid {s : Service} {rest : List Lexeme} (h : s.Valid rest) (first : Nat)
    (leading : List Shape) (i : Nat) (p : Option Lexeme) :
    service first leading ⟨i, p, lexemes s.words ++ rest⟩
      = .ok (.node .serviceDeclaration first (i + s.words.length) .none
          (leading ++ Branch.shapesAll i s.branches), past i p s.words rest) := by
  have hattach := scan_words (h.attach.congr (q := some s.keyword.lexeme) fun _ => rfl)
    (show Stops attachRule _ (s.on.lexeme :: (lexemes s.listener ++ s.opening.lexeme ::
      (lexemes (serviceGrammar.words s.items) ++ (lexemes s.foot ++ rest)))) by
        simp [Stops, attachRule, show s.on.lexeme.isWord ['o', 'n'] = true from h.on]) (i + 1)
  have hlistener := scan_words (h.listener.congr (q := some s.on.lexeme) fun _ => rfl)
    (show Stops listenerRule _ (s.opening.lexeme ::
      (lexemes (serviceGrammar.words s.items) ++ (lexemes s.foot ++ rest))) by
        simp [Stops, listenerRule, h.opening]) (i + 1 + s.attach.length + 1)
  have hitems : serviceGrammar.AllValid (some s.opening.lexeme) s.items
      (s.closing.lexeme :: (lexemes s.semicolon.toList ++ rest)) :=
    h.items.congr serviceGrammar_local rfl rfl
  have hmembers := members_services hitems h.closing
    (i + 1 + s.attach.length + 1 + s.listener.length + 1)
  have hsemi := skipSemicolon_of_valid h.semicolon (i + 1 + s.attach.length + 1 + s.listener.length
    + 1 + (serviceGrammar.words s.items).length + 1) (some s.closing.lexeme)
  have hon : s.on.lexeme.isWord "on".toList = true := h.on
  simp only [service, Service.words, Service.head, lexemes_cons, lexemes_append,
    List.cons_append, List.append_assoc, List.nil_append, advance_index_cons]
  change (scan attachRule _).bind _ = _
  rw [hattach]
  simp only [Except.bind, atWord_past, startsWord, List.head?_cons, Option.any_some, hon,
    Bool.not_true, Bool.false_eq_true, if_false, advance_past_cons, attachPoint_past]
  change (scan listenerRule _).bind _ = _
  rw [hlistener]
  simp only [Except.bind, atOp_past, startsOp, List.head?_cons, Option.any_some, h.opening,
    Bool.not_true, Bool.false_eq_true, if_false, advance_past_cons, bind]
  rw [Service.foot, lexemes_cons, List.cons_append, hmembers]
  simp only [past, atEnd_cons, Bool.false_eq_true, if_false, advance_index_cons, hsemi, pure,
    Except.pure]
  simp only [Service.branches, Service.headBranches, Service.footBranches, Branch.shapesAll_append,
    Branch.shapesAll_cons, Branch.shapes_leaf, Branch.shapes_span, Branch.words_leaf,
    Branch.words_span, Service.wordsAll_attachBranches, Branch.shapesAll_words, List.append_nil,
    List.length_append, List.length_cons, List.length_nil,
    List.cons_append, List.nil_append, List.append_assoc, lexemes_cons, lexemes_append, latest_cons,
    latest_append, Grammar.words]
  congr 3 <;> omega

theorem exists_of_service {first : Nat} {leading : List Shape} {i : Nat} {p : Option Lexeme}
    {ws : List Word} {r : Shape × Cursor}
    (hw : startsWord "service".toList (lexemes ws) = true)
    (hclass : startsWord "class".toList (lexemes ws).tail = false)
    (h : service first leading ⟨i, p, lexemes ws⟩ = .ok r) :
    ∃ (s : Service) (rest : List Word), ws = s.words ++ rest ∧ s.Valid (lexemes rest) := by
  obtain ⟨keyword, ws, rfl, hkeyword⟩ := exists_cons_of_startsWord hw
  obtain ⟨c, hc, h⟩ := bind_ok h
  rw [lexemes_cons, advance_index_cons] at hc
  change scan attachRule _ = _ at hc
  obtain ⟨attach, ws, rfl, hattach, -, rfl⟩ := exists_of_scan hc
  obtain ⟨hon, h⟩ := ok_of_guard h
  obtain ⟨on, ws, rfl, hon⟩ := exists_cons_of_startsWord hon
  obtain ⟨c, hc, h⟩ := bind_ok h
  rw [lexemes_cons, advance_index_cons] at hc
  change scan listenerRule _ = _ at hc
  obtain ⟨listener, ws, rfl, hlistener, -, rfl⟩ := exists_of_scan hc
  obtain ⟨hopening, h⟩ := ok_of_guard h
  obtain ⟨opening, ws, rfl, hopening⟩ := exists_cons_of_startsOp hopening
  obtain ⟨⟨inner, ⟨j, q, ls⟩⟩, hm, h⟩ := bind_ok h
  rw [lexemes_cons, advance_index_cons] at hm
  obtain ⟨items, ws, rfl, hitems, rfl, hclose⟩ := exists_of_members serviceGrammar_describes hm
  obtain ⟨hend, -⟩ := ok_of_check h
  obtain ⟨closing, ws, rfl⟩ := exists_cons_of_not_atEnd hend
  have hclosing : closing.lexeme.isOp ['}'] = true := by
    rcases hclose with hclose | hclose
    · cases hclose
    · exact hclose
  have hno : startsWord "class".toList (lexemes (attach ++ [on])) = false := by
    cases attach <;> exact hclass
  have hfoot : ∀ ls : List Lexeme, serviceGrammar.AllValid (some opening.lexeme) items
      (closing.lexeme :: ls) :=
    fun ls => hitems.congr serviceGrammar_local rfl rfl
  obtain ⟨semicolon, rest, rfl, hsemi⟩ := exists_semicolon ws
  exact ⟨⟨keyword, attach, on, listener, opening, items, closing, semicolon⟩, rest,
    by simp [Service.words, Service.head, Service.foot], hkeyword, hno,
    hattach.congr fun _ => rfl, hon, hlistener.congr fun _ => rfl, hopening, hfoot _, hclosing,
    hsemi⟩

/-! ## Modules -/

theorem importRule_semicolon {l : Lexeme} (h : l.isOp [';'] = true) (p : Option Lexeme) :
    importRule p l = .stop := by
  simp [importRule, h]

theorem importRule_as {l : Lexeme} (h : l.isWord "as".toList = true) (p : Option Lexeme) :
    importRule p l = .stop := by
  simp [importRule, show l.isWord ['a', 's'] = true from h]

theorem isWord_of_importRule {l : Lexeme} {p : Option Lexeme} (h : importRule p l = .stop)
    (hsemi : l.isOp [';'] = false) : l.isWord "as".toList = true := by
  unfold importRule at h
  split_ifs at h with hor
  simpa [hsemi] using hor

theorem aliasRule_eq_stop {l : Lexeme} {p : Option Lexeme} :
    aliasRule p l = .stop ↔ l.isOp [';'] = true := by
  simp [aliasRule]

/-- The name that an alias gives, if there is one, and the cursor behind it. -/
def given (c : Cursor) : List Shape × Cursor :=
  if c.atIdent then ([.leaf .identifier c.index], c.advance) else ([], c)

theorem importDeclaration_of_scan {i : Nat} {p : Option Lexeme} {l : Lexeme} {ls : List Lexeme}
    {stop : Cursor} (h : scan importRule ⟨i + 1, some l, ls⟩ = .ok stop) :
    importDeclaration ⟨i, p, l :: ls⟩
      = if stop.atEnd then stop.fail .importEnd
        else if stop.atOp [';'] then
          .ok (.node .importDeclaration i stop.advance.index
            (.name ((lexemesTo ⟨i + 1, some l, ls⟩ stop).flatMap (·.text))) [], stop.advance)
        else (scan aliasRule (given stop.advance).2).bind fun last =>
          if last.atEnd then last.fail (.expected [';'] none)
          else .ok (.node .importDeclaration i last.advance.index
            (.name ((lexemesTo ⟨i + 1, some l, ls⟩ stop).flatMap (·.text)))
            (given stop.advance).1, last.advance) := by
  unfold importDeclaration
  change (scan importRule _).bind _ = _
  rw [advance_index_cons, h]
  rfl

theorem given_of_valid {a : Alias} (h : a.Valid) {l : Lexeme} (hl : l.kind ≠ .ident)
    (ls : List Lexeme) (i : Nat) (p : Option Lexeme) :
    given ⟨i, p, lexemes (a.given.toList ++ a.rest) ++ l :: ls⟩
      = (Branch.shapesAll i (a.given.toList.map (.leaf .identifier)),
          past i p a.given.toList (lexemes a.rest ++ l :: ls)) := by
  obtain ⟨as, name, rest⟩ := a
  have hname := h.given
  cases name with
  | none =>
    have hident : atIdent ⟨i, p, lexemes rest ++ l :: ls⟩ = false := by
      cases rest with
      | nil => simpa using hl
      | cons w rest => simpa using hname w.lexeme rfl
    simp [given, hident, past]
  | some w =>
    have hw : w.lexeme.kind = .ident := hname
    simp [given, hw, past]

theorem exists_given (i : Nat) (p : Option Lexeme) (ws : List Word) :
    ∃ (name : Option Word) (rest : List Word), ws = name.toList ++ rest
      ∧ (given ⟨i, p, lexemes ws⟩).2 = past i p name.toList (lexemes rest)
      ∧ match name with
        | none => ∀ l ∈ (lexemes rest).head?, l.kind ≠ .ident
        | some w => w.lexeme.kind = .ident := by
  unfold given
  split_ifs with h
  · cases ws with
    | nil => simp at h
    | cons w ws => exact ⟨some w, ws, rfl, rfl, by simpa using h⟩
  · refine ⟨none, ws, rfl, rfl, ?_⟩
    cases ws with
    | nil => simp
    | cons w ws => simpa using h

theorem importDeclaration_of_valid {d : Import} (h : d.Valid) (rest : List Lexeme) (i : Nat)
    (p : Option Lexeme) :
    ∃ s, importDeclaration ⟨i, p, lexemes d.words ++ rest⟩ = .ok (s, past i p d.words rest)
      ∧ d.branch.shapes i = [s] := by
  obtain ⟨keyword, name, renamed, semicolon⟩ := d
  obtain ⟨-, hname, hrenamed, hsemi⟩ := h
  simp only at hname hrenamed hsemi
  have hread := hname.congr (q := some keyword.lexeme) fun _ => rfl
  have hlabel : (lexemes name).flatMap (·.text) = name.flatMap (·.lexeme.text) := by
    rw [lexemes, List.flatMap_map]
  refine ⟨_, ?_, by rw [Import.branch, Branch.shapes_node]⟩
  cases renamed with
  | none =>
    have hscan := scan_words (t := semicolon.lexeme :: rest) hread
      (importRule_semicolon hsemi _) (i + 1)
    have hat : startsOp [';'] (semicolon.lexeme :: rest) = true := hsemi
    simp only [Import.words, Import.aliasWords, lexemes_cons, lexemes_append, lexemes_nil,
      List.cons_append, List.append_assoc, List.nil_append]
    rw [importDeclaration_of_scan hscan]
    simp only [atEnd_past_cons, Bool.false_eq_true, if_false, atOp_past, hat, if_true,
      advance_past_cons, lexemesTo_past, hlabel]
    simp [past, Import.aliasBranches, Nat.add_assoc, Nat.add_comm 1]
  | some a =>
    have ha : a.Valid := hrenamed a rfl
    have hscan := scan_words
      (t := a.keyword.lexeme :: (lexemes (a.given.toList ++ a.rest) ++ semicolon.lexeme :: rest))
      hread (importRule_as ha.keyword _) (i + 1)
    have hat : startsOp [';'] (a.keyword.lexeme ::
        (lexemes (a.given.toList ++ a.rest) ++ semicolon.lexeme :: rest)) = false :=
      Lexeme.isOp_of_ident (Lexeme.kind_of_isWord ha.keyword) _
    have hgiven := given_of_valid ha (l := semicolon.lexeme)
      (by rw [Lexeme.kind_of_isOp hsemi]; decide) rest (i + 1 + name.length + 1)
      (some a.keyword.lexeme)
    have hlast := scan_words (t := semicolon.lexeme :: rest)
      (ha.rest.congr (q := latest (some a.keyword.lexeme) (lexemes a.given.toList)) fun _ => rfl)
      (aliasRule_eq_stop.2 hsemi) (i + 1 + name.length + 1 + a.given.toList.length)
    have hwords : lexemes (Import.words ⟨keyword, name, some a, semicolon⟩) ++ rest
        = keyword.lexeme :: (lexemes name ++ a.keyword.lexeme ::
          (lexemes (a.given.toList ++ a.rest) ++ semicolon.lexeme :: rest)) := by
      simp [Import.words, Import.aliasWords, Alias.words]
    rw [hwords, importDeclaration_of_scan hscan]
    simp only [atEnd_past_cons, Bool.false_eq_true, if_false, atOp_past, hat, advance_past_cons,
      lexemesTo_past, hlabel, hgiven]
    rw [past, hlast]
    simp [Except.bind, past, Import.words, Import.aliasWords, Alias.words, Import.aliasBranches,
      Alias.branches]
    omega

theorem exists_of_importDeclaration {i : Nat} {p : Option Lexeme} {ws : List Word}
    {r : Shape × Cursor} (hw : startsWord "import".toList (lexemes ws) = true)
    (h : importDeclaration ⟨i, p, lexemes ws⟩ = .ok r) :
    ∃ (d : Import) (rest : List Word), ws = d.words ++ rest ∧ d.Valid := by
  obtain ⟨keyword, ws, rfl, hkeyword⟩ := exists_cons_of_startsWord hw
  obtain ⟨c, hscan, -⟩ := bind_ok h
  rw [lexemes_cons, advance_index_cons] at hscan
  change scan importRule _ = _ at hscan
  rw [lexemes_cons, importDeclaration_of_scan hscan] at h
  obtain ⟨name, ws, rfl, hname, hstop, rfl⟩ := exists_of_scan hscan
  obtain ⟨hend, h⟩ := ok_of_check h
  obtain ⟨w, ws, rfl⟩ := exists_cons_of_not_atEnd hend
  by_cases hsemi : w.lexeme.isOp [';'] = true
  · exact ⟨⟨keyword, name, none, w⟩, ws, by simp [Import.words, Import.aliasWords], hkeyword,
      hname.congr fun _ => rfl, by simp, hsemi⟩
  · rw [Bool.not_eq_true] at hsemi
    obtain ⟨given, ws, rfl, hafter, hgiven⟩ :=
      exists_given (i + 1 + name.length + 1) (some w.lexeme) ws
    simp only [lexemes_cons, Bool.false_eq_true, if_false, atOp_cons, hsemi, advance_index_cons,
      hafter] at h
    obtain ⟨last, hlast, h⟩ := bind_ok h
    obtain ⟨skipped, ws, rfl, hp, hsemi', rfl⟩ := exists_of_scan hlast
    obtain ⟨hend, -⟩ := ok_of_check h
    obtain ⟨s, rest, rfl⟩ := exists_cons_of_not_atEnd hend
    refine ⟨⟨keyword, name, some ⟨w, given, skipped⟩, s⟩, rest,
      by simp [Import.words, Import.aliasWords, Alias.words], hkeyword, hname.congr fun _ => rfl,
      ?_, aliasRule_eq_stop.1 hsemi'⟩
    rintro _ ⟨⟩
    refine ⟨isWord_of_importRule (p := none) hstop hsemi, ?_, hp.congr fun _ => rfl⟩
    cases given with
    | some v => exact hgiven
    | none => cases skipped with
      | nil => simp
      | cons v skipped => exact hgiven

theorem atWord_advance_past (i : Nat) (p : Option Lexeme) (ws : List Word) (rest : List Lexeme)
    (s : Text) : (past i p ws rest).advance.atWord s = startsWord s rest.tail := by
  cases rest <;> rfl

theorem atOp_advance_past (i : Nat) (p : Option Lexeme) (ws : List Word) (rest : List Lexeme)
    (s : Text) : (past i p ws rest).advance.atOp s = startsOp s rest.tail := by
  cases rest <;> rfl

theorem shapesAll_leading_isEmpty (h : Leading) (i : Nat) :
    (Branch.shapesAll i h.branches).isEmpty = h.words.isEmpty := by
  obtain ⟨_ | ⟨a, as⟩, _ | ⟨q, qs⟩⟩ := h <;>
    simp [Leading.branches, Leading.words, Attachment.branch, Attachment.words]

theorem moduleMember_leading {h : Leading} {rest : List Lexeme}
    (hv : h.Valid moduleQualifiers rest) (i : Nat) (p : Option Lexeme) :
    moduleMember ⟨i, p, lexemes h.words ++ rest⟩
      = if startsWord "import".toList rest && h.words.isEmpty then
          importDeclaration (past i p h.words rest)
        else if startsWord "service".toList rest && !startsWord "class".toList rest.tail then
          service i (Branch.shapesAll i h.branches) (past i p h.words rest)
        else if startsWord "function".toList rest && !startsOp ['('] rest.tail then
          function .functionDefinition i (Branch.shapesAll i h.branches) (past i p h.words rest)
        else otherMember i (past i p h.words rest) := by
  unfold moduleMember
  rw [annotations_leading hv]
  simp only [bind, Except.bind, qualifiers_leading hv, shapesAll_leading, atWord_past,
    atWord_advance_past, atOp_advance_past, shapesAll_leading_isEmpty]

theorem tail_core_ne_nil {allowed : List Text} {p : Option Lexeme} {o : Other}
    {rest : List Lexeme} (h : o.Valid allowed p rest) {s : Text}
    (hs : startsWord s (lexemes o.core) = true) : (lexemes o.core).tail ≠ [] := by
  obtain ⟨leading, content, e⟩ := o
  have he := h.ending
  rcases content with _ | ⟨w, content⟩
  · cases e with
    | semicolon w =>
      have hw : w.lexeme.isOp [';'] = true := he
      simp [Other.core, Ending.words, startsWord, Lexeme.isWord_of_isOp hw] at hs
    | block g semicolon => simp [Other.core, Ending.words, Group.words]
  · cases e <;> simp [Other.core, Ending.words, Group.words]

theorem tail_append {ls : List Lexeme} (h : ls.tail ≠ []) (rest : List Lexeme) :
    (ls ++ rest).tail = ls.tail ++ rest := by
  cases ls with
  | nil => simp at h
  | cons l ls => rfl

theorem moduleMember_of_declaration {d : Import} (h : d.Valid) (rest : List Lexeme) (i : Nat)
    (p : Option Lexeme) :
    moduleMember ⟨i, p, lexemes d.words ++ rest⟩
      = importDeclaration ⟨i, p, lexemes d.words ++ rest⟩ := by
  have hlead : Leading.Valid moduleQualifiers ⟨[], []⟩ (lexemes d.words ++ rest) := by
    refine ⟨Lexeme.isOp_of_ident (Lexeme.kind_of_isWord h.keyword) _, by simp, ?_⟩
    rintro _ ⟨⟩ ⟨-, ht⟩
    have hk : d.keyword.lexeme.text = "import".toList := by
      have := h.keyword
      simp only [Lexeme.isWord, Bool.and_eq_true, beq_iff_eq] at this
      exact this.2
    rw [hk] at ht
    exact absurd ht (by decide)
  have hword : startsWord "import".toList (lexemes d.words ++ rest) = true := h.keyword
  have := moduleMember_leading hlead i p
  rw [hword] at this
  exact this

theorem moduleMember_of_service {h : Leading} {s : Service} {rest : List Lexeme}
    (hlead : h.Valid moduleQualifiers (lexemes s.words ++ rest)) (hs : s.Valid rest) (i : Nat)
    (p : Option Lexeme) :
    moduleMember ⟨i, p, lexemes (h.words ++ s.words) ++ rest⟩
      = service i (Branch.shapesAll i h.branches) (past i p h.words (lexemes s.words ++ rest)) := by
  have h1 : startsWord "import".toList (lexemes s.words ++ rest) = false :=
    (Lexeme.isWord_eq hs.keyword _).trans (by decide)
  have h2 : startsWord "service".toList (lexemes s.words ++ rest) = true := hs.keyword
  have h3 : startsWord "class".toList (lexemes s.words ++ rest).tail = false := by
    have hno := hs.noClass
    obtain ⟨keyword, attach, on, listener, opening, items, closing, semicolon⟩ := s
    cases attach <;> exact hno
  rw [lexemes_append, List.append_assoc, moduleMember_leading hlead, h1, h2, h3]
  rfl

theorem moduleMember_of_function {d : Definition}
    (hd : d.Valid moduleQualifiers .functionDefinition) (rest : List Lexeme) (i : Nat)
    (p : Option Lexeme) :
    moduleMember ⟨i, p, lexemes d.words ++ rest⟩
      = function .functionDefinition i (Branch.shapesAll i d.leading.branches)
          (past i p d.leading.words (lexemes d.function.words ++ rest)) := by
  have hlead := hd.leading.congr (.of_take (d.function.take_words rest).symm)
  have hk := hd.function.keyword
  have h1 : startsWord "import".toList (lexemes d.function.words ++ rest) = false :=
    (Lexeme.isWord_eq hk _).trans (by decide)
  have h2 : startsWord "service".toList (lexemes d.function.words ++ rest) = false :=
    (Lexeme.isWord_eq hk _).trans (by decide)
  have h3 : startsWord "function".toList (lexemes d.function.words ++ rest) = true := hk
  have h4 : startsOp ['('] (lexemes d.function.words ++ rest).tail = false :=
    Lexeme.isOp_of_ident hd.function.name _
  rw [Definition.words, lexemes_append, List.append_assoc, moduleMember_leading hlead, h1, h2, h3,
    h4]
  rfl

theorem moduleMember_of_other {o : Other} {p : Option Lexeme} {rest : List Lexeme}
    (ho : o.Valid moduleQualifiers p rest) (hplain : o.Plain) (i : Nat) :
    moduleMember ⟨i, p, lexemes o.words ++ rest⟩
      = otherMember i (past i p o.leading.words (lexemes o.core ++ rest)) := by
  obtain ⟨hi, hs, hf⟩ := hplain
  have hword : ∀ s, startsWord s (lexemes o.core ++ rest) = startsWord s (lexemes o.core) :=
    fun s => startsWord_append o.core_ne_nil rest
  rw [Other.words, lexemes_append, List.append_assoc, moduleMember_leading ho.leading, if_neg,
    if_neg, if_neg]
  · rw [hword, Bool.and_eq_true]
    rintro ⟨h1, h2⟩
    have ht := tail_core_ne_nil ho h1
    rw [tail_append ht, startsOp_append ht, hf h1] at h2
    cases h2
  · rw [hword, Bool.and_eq_true]
    rintro ⟨h1, h2⟩
    have ht := tail_core_ne_nil ho h1
    rw [tail_append ht, startsWord_append ht, hs h1] at h2
    cases h2
  · rw [hword, Bool.and_eq_true, List.isEmpty_iff]
    rintro ⟨h1, h2⟩
    exact hi h1 h2

theorem moduleGrammar_describes : moduleGrammar.Describes moduleMember where
  complete := by
    intro p m rest h i
    cases m with
    | declaration d =>
      rw [moduleGrammar_declaration, Import.words_branch, moduleMember_of_declaration h]
      exact importDeclaration_of_valid h rest i p
    | service leading s =>
      obtain ⟨hlead, hs⟩ := h
      have hwords : (moduleGrammar.branch (.service leading s)).words
          = leading.words ++ s.words := by simp
      refine ⟨_, ?_, by rw [moduleGrammar_service, Branch.shapes_node]⟩
      rw [hwords, moduleMember_of_service hlead hs, past, service_of_valid hs, past_append]
      simp [Nat.add_assoc]
    | function d =>
      rw [moduleGrammar_function, Definition.words_branch, moduleMember_of_function h]
      exact function_definition h rest i p
    | other o =>
      obtain ⟨ho, hplain⟩ := h
      rw [moduleGrammar_other, Other.words_branch, moduleMember_of_other ho hplain]
      exact otherMember_other ho i
  sound := by
    intro i p ws r h
    obtain ⟨a, ha, -⟩ := bind_ok h
    obtain ⟨lead, rest, rfl, hlead⟩ := exists_leading moduleQualifiers ha
    rw [lexemes_append, moduleMember_leading hlead] at h
    split_ifs at h with h1 h2 h3
    · rw [Bool.and_eq_true, List.isEmpty_iff] at h1
      obtain ⟨d, rest, rfl, hd⟩ := exists_of_importDeclaration h1.1 h
      exact ⟨.declaration d, rest, by simp [h1.2], hd⟩
    · rw [Bool.and_eq_true, Bool.not_eq_true'] at h2
      obtain ⟨s, rest, rfl, hs⟩ := exists_of_service h2.1 h2.2 h
      rw [lexemes_append] at hlead
      exact ⟨.service lead s, rest, by simp, hlead, hs⟩
    · rw [Bool.and_eq_true] at h3
      obtain ⟨f, rest, rfl, hf⟩ := exists_of_function h3.1 h
      rw [lexemes_append] at hlead
      exact ⟨.function ⟨lead, f⟩, rest, by simp [Definition.words],
        hlead.congr (.of_take (f.take_words _)), hf⟩
    · obtain ⟨o, rest, rfl, rfl, ho⟩ := exists_other hlead h
      have hword : ∀ s,
          startsWord s (lexemes (o.core ++ rest)) = startsWord s (lexemes o.core) := by
        intro s
        rw [lexemes_append, startsWord_append o.core_ne_nil]
      simp only [hword, Bool.and_eq_true, not_and, Bool.not_eq_true', Bool.not_eq_false,
        List.isEmpty_iff] at h1 h2 h3
      refine ⟨.other o, rest, by simp [Other.words], ho, h1, fun hs => ?_, fun hs => ?_⟩
      · have ht := tail_core_ne_nil ho hs
        have := h2 hs
        rwa [lexemes_append, tail_append ht, startsWord_append ht] at this
      · have ht := tail_core_ne_nil ho hs
        have := h3 hs
        rwa [lexemes_append, tail_append ht, startsOp_append ht] at this

/-- The members of a module that valid items spell are their shapes. -/
theorem members_of_allValid {items : List (Item ModuleMember)}
    (h : moduleGrammar.AllValid none items []) :
    Shape.members (lexemes (moduleGrammar.words items))
      = .ok (Branch.shapesAll 0 (items.map moduleGrammar.itemBranch)) := by
  have hread : members ⟨moduleMember, moduleMember_lt⟩ (fun _ => false)
      ⟨0, none, lexemes (moduleGrammar.words items) ++ []⟩ = .ok _ :=
    members_of_valid moduleGrammar_describes (by simp) h (.inl rfl) 0
  rw [List.append_nil] at hread
  rw [Shape.members, Cursor.start, hread]
  rfl

theorem exists_of_shapeMembers {ws : List Word} {ss : List Shape}
    (h : Shape.members (lexemes ws) = .ok ss) :
    ∃ items : List (Item ModuleMember), ws = moduleGrammar.words items
      ∧ moduleGrammar.AllValid none items [] := by
  obtain ⟨⟨shapes, c⟩, hm⟩ := map_ok h
  obtain ⟨items, rest, rfl, hitems, -, hrest⟩ := exists_of_members moduleGrammar_describes hm
  rcases hrest with rfl | hrest
  · exact ⟨items, List.append_nil _, hitems⟩
  · cases hrest

end Cursor

namespace Tree

open Phrase Lexer

/-- The tree of a source that valid items spell. -/
theorem parse_of_valid {items : List (Item ModuleMember)} {tail : Text}
    (hv : moduleGrammar.AllValid none items []) (hl : Legible (moduleGrammar.words items) tail)
    (ht : Trailing tail) :
    parse (spell (moduleGrammar.words items) ++ tail)
      = .ok (ofBranches (spell (moduleGrammar.words items) ++ tail) tail
          (items.map moduleGrammar.itemBranch)) :=
  parse_of_members hl ht (Cursor.members_of_allValid hv)

theorem exists_of_parse {source : Text} {tree : Tree} (h : parse source = .ok tree) :
    ∃ (items : List (Item ModuleMember)) (tail : Text),
      source = spell (moduleGrammar.words items) ++ tail
      ∧ moduleGrammar.AllValid none items [] ∧ Legible (moduleGrammar.words items) tail
      ∧ Trailing tail ∧ tree = ofBranches source tail (items.map moduleGrammar.itemBranch) := by
  have h' := h
  unfold parse at h
  split at h
  · cases h
  · rename_i tokens hscan
    split at h
    · cases h
    · rename_i members hm
      obtain ⟨ws, tail, rfl, hl, ht, rfl⟩ := exists_words hscan
      rw [tokensFrom_toLexeme] at hm
      obtain ⟨items, rfl, hv⟩ := Cursor.exists_of_shapeMembers hm
      rw [parse_of_valid hv hl ht] at h'
      cases h'
      exact ⟨items, tail, rfl, hv, hl, ht, rfl⟩

theorem source_of_parse {source : Text} {tree : Tree} (h : parse source = .ok tree) :
    tree.source = source := by
  obtain ⟨items, tail, -, -, -, -, rfl⟩ := exists_of_parse h
  rfl

end Tree

end BalMediation
