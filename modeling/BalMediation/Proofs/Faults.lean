import BalMediation.Proofs.Lines
import BalMediation.Proofs.Rescanning
import BalMediation.Proofs.Spacing

/-!
# Faults

Reading a source always ends, with a tree or with a fault at a place in the source. A reader stays
in the lexemes it was given (`Stays`): where it stops, as many lexemes are behind the cursor and to
come as there were, and it fails at one of them or at their end. The readers are composed of
others by `Stays.bind`, so one lemma for each follows its branches.

So every number that a shape or a fault holds is that of a token or of the end (`number_le`), and
every error stands where a token begins or, in a source that cannot be cut into tokens, at the quote
or backslash at fault (`parse_located`).
-/

namespace BalMediation

namespace Cursor

/-- The number of lexemes of the source that a cursor stands in. -/
def total (c : Cursor) : Nat :=
  c.index + c.rest.length

theorem index_le_total (c : Cursor) : c.index ≤ c.total :=
  Nat.le_add_right _ _

theorem total_advance (c : Cursor) : c.advance.total = c.total := by
  rcases c with ⟨i, p, _ | ⟨l, ls⟩⟩
  · rfl
  · simp only [total, advance, List.length_cons]
    omega

theorem total_skipSemicolon (c : Cursor) : c.skipSemicolon.total = c.total := by
  unfold skipSemicolon
  split
  · exact total_advance c
  · rfl

theorem total_skipQualified (c : Cursor) : c.skipQualified.total = c.total := by
  unfold skipQualified
  split
  · rw [total_advance, total_advance]
  · rfl

theorem total_qualifiers (allowed : List Text) (c : Cursor) :
    (qualifiers allowed c).2.total = c.total := by
  fun_induction qualifiers allowed c with
  | case1 => rfl
  | case2 c l ls hc hw more last hq ih =>
    rw [hq, total_advance] at ih
    exact ih
  | case3 => rfl

/-! ## Readers stay in their source -/

section Stays

variable {α β : Type} {n : Nat} {place : α → Cursor} {place' : β → Cursor}

/-- Whether an outcome stays in a source of `n` lexemes: it stops in it, or fails at one of its
lexemes or at its end. -/
def Stays (n : Nat) (place : α → Cursor) : Except Fault α → Prop
  | .ok a => (place a).total = n
  | .error fault => fault.token ≤ n

theorem Stays.total_eq {x : Except Fault α} (h : Stays n place x) {a : α} (hx : x = .ok a) :
    (place a).total = n := by
  rw [hx] at h
  exact h

theorem Stays.token_le {x : Except Fault α} (h : Stays n place x) {fault : Fault}
    (hx : x = .error fault) : fault.token ≤ n := by
  rw [hx] at h
  exact h

theorem Stays.fail {c : Cursor} (h : c.total = n) (cause : Cause) :
    Stays n place (c.fail cause) :=
  h ▸ c.index_le_total

theorem Stays.bind {x : Except Fault α} {k : α → Except Fault β} (hx : Stays n place x)
    (hk : ∀ a, (place a).total = n → Stays n place' (k a)) : Stays n place' (x >>= k) := by
  cases x with
  | error fault => exact hx
  | ok a => exact hk a hx

end Stays

theorem closeGroups_stays {opened : List (Nat × Bracket)} {i : Nat} (p : Option Lexeme)
    (ls : List Lexeme) (h : ∀ o ∈ opened, o.1 ≤ i + ls.length) :
    Stays (i + ls.length) id (closeGroups opened i p ls) := by
  induction ls generalizing opened i p with
  | nil =>
    cases opened with
    | nil => exact rfl
    | cons o outer => exact h o List.mem_cons_self
  | cons l ls ih =>
    have hlen : i + (l :: ls).length = i + 1 + ls.length := by
      rw [List.length_cons]
      omega
    cases opened with
    | nil => exact rfl
    | cons o outer =>
      obtain ⟨j, b⟩ := o
      have hi : i ≤ i + 1 + ls.length := by omega
      rw [hlen] at h ⊢
      have houter := (List.forall_mem_cons.1 h).2
      simp only [closeGroups]
      split
      · exact ih _ (List.forall_mem_cons.2 ⟨hi, h⟩)
      · split
        · split
          · exact ih _ houter
          · exact hi
        · exact ih _ h

theorem skipGroup_stays {c : Cursor} {n : Nat} (h : c.total = n) (b : Bracket) :
    Stays n id (c.skipGroup b) := by
  have hadvance : c.advance.index + c.advance.rest.length = n := (total_advance c).trans h
  rw [← hadvance]
  refine closeGroups_stays _ _ fun o ho => ?_
  rw [List.mem_singleton.1 ho, hadvance, ← h]
  exact c.index_le_total

theorem scan_stays (rule : Option Lexeme → Lexeme → Step) {c : Cursor} {n : Nat}
    (h : c.total = n) : Stays n id (scan rule c) := by
  fun_induction scan rule c with
  | case1 c hc => exact h
  | case2 c l ls hc hr => exact h
  | case3 c l ls hc hr ih => exact ih ((total_advance c).trans h)
  | case4 c l ls hc cause hr => exact .fail h cause
  | case5 c l ls hc b hr fault hg => exact (skipGroup_stays h b).token_le hg
  | case6 c l ls hc b hr c' hg ih => exact ih ((skipGroup_stays h b).total_eq hg)

theorem annotationAttachment_stays {c : Cursor} {n : Nat} (h : c.total = n) :
    Stays n Prod.snd c.annotationAttachment := by
  have hname : c.advance.total = n := (total_advance c).trans h
  have hafter : c.advance.advance.skipQualified.total = n := by
    rw [total_skipQualified, total_advance, hname]
  unfold annotationAttachment
  dsimp only
  split
  · exact .fail hname _
  · split
    · exact (skipGroup_stays hafter _).bind fun last hlast => hlast
    · exact hafter

theorem annotations_stays {c : Cursor} {n : Nat} (h : c.total = n) :
    Stays n Prod.snd c.annotations := by
  fun_induction annotations c with
  | case1 c hat fault ha => exact (annotationAttachment_stays h).token_le ha
  | case2 c hat s after ha fault hm ih =>
    exact (ih ((annotationAttachment_stays h).total_eq ha)).token_le hm
  | case3 c hat s after ha more last hm ih =>
    have hlast := (ih ((annotationAttachment_stays h).total_eq ha)).total_eq hm
    exact hlast
  | case4 c hat => exact h

theorem otherMember_stays (first : Nat) {c : Cursor} {n : Nat} (h : c.total = n) :
    Stays n Prod.snd (otherMember first c) := by
  refine (scan_stays _ h).bind fun stop hstop => ?_
  split
  · exact .fail hstop _
  · split
    · exact (total_advance stop).trans hstop
    · exact (skipGroup_stays hstop _).bind fun last hlast => (total_skipSemicolon last).trans hlast

theorem rejectClosing_token {c : Cursor} {fault : Fault} (h : c.rejectClosing = .error fault) :
    fault.token = c.index := by
  unfold rejectClosing at h
  split at h
  · split at h <;> cases h
    rfl
  · cases h

theorem members_stays {item : Reader}
    (hitem : ∀ {c : Cursor} {n : Nat}, c.total = n → Stays n Prod.snd (item.read c))
    (closed : Cursor → Bool) {c : Cursor} {n : Nat} (h : c.total = n) :
    Stays n Prod.snd (members item closed c) := by
  fun_induction members item closed c with
  | case1 c he => exact h
  | case2 c he hc => exact h
  | case3 c he hc hs ih => exact ih ((total_advance c).trans h)
  | case4 c he hc hs fault hr =>
    rw [Stays, rejectClosing_token hr, ← h]
    exact c.index_le_total
  | case5 c he hc hs hr fault ha => exact (hitem h).token_le ha
  | case6 c he hc hs hr s after ha fault hm ih => exact (ih ((hitem h).total_eq ha)).token_le hm
  | case7 c he hc hs hr s after ha more last hm ih =>
    have hlast := (ih ((hitem h).total_eq ha)).total_eq hm
    exact hlast

theorem resourcePath_stays {c : Cursor} {n : Nat} (h : c.total = n) :
    Stays n Prod.snd c.resourcePath := by
  refine (scan_stays _ h).bind fun stop hstop => ?_
  split
  · exact .fail hstop _
  · split
    · exact .fail hstop _
    · exact hstop

theorem accessPath_stays (kind : Kind) {c : Cursor} {n : Nat} (h : c.total = n) :
    Stays n Prod.snd (c.accessPath kind) := by
  unfold accessPath
  split
  · exact (resourcePath_stays h).bind fun path hpath => hpath
  · exact h

theorem returnType_stays {c : Cursor} {n : Nat} (h : c.total = n) :
    Stays n Prod.snd c.returnType := by
  refine (annotations_stays ((total_advance c).trans h)).bind fun annotated htype => ?_
  refine (scan_stays _ htype).bind fun stop hstop => ?_
  split
  · exact .fail hstop _
  · exact hstop

theorem signature_stays {c : Cursor} {n : Nat} (h : c.total = n) :
    Stays n Prod.snd c.signature := by
  unfold signature
  split
  · exact .fail h _
  · refine (scan_stays _ ((total_advance c).trans h)).bind fun close hclose => ?_
    have hafter : close.advance.total = n := (total_advance close).trans hclose
    split
    · exact .fail h _
    · dsimp only
      split
      · exact (returnType_stays hafter).bind fun type hlast => hlast
      · exact hafter

theorem body_stays {c : Cursor} {n : Nat} (h : c.total = n) : Stays n Prod.snd c.body := by
  unfold body
  split
  · exact (skipGroup_stays h _).bind fun last hlast => hlast
  · split
    · refine (scan_stays _ h).bind fun stop hstop => ?_
      split
      · exact .fail hstop _
      · exact (total_advance stop).trans hstop
    · split
      · exact (total_advance c).trans h
      · exact .fail h _

theorem function_stays (kind : Kind) (first : Nat) (leading : List Shape) {c : Cursor} {n : Nat}
    (h : c.total = n) : Stays n Prod.snd (function kind first leading c) := by
  have hname : c.advance.total = n := (total_advance c).trans h
  unfold function
  dsimp only
  split
  · exact .fail hname _
  · refine (accessPath_stays kind ((total_advance _).trans hname)).bind fun path hpath => ?_
    refine (signature_stays hpath).bind fun signature hsignature => ?_
    exact (body_stays hsignature).bind fun body hbody => hbody

theorem serviceMember_stays {c : Cursor} {n : Nat} (h : c.total = n) :
    Stays n Prod.snd c.serviceMember := by
  refine (annotations_stays h).bind fun annotated hbare => ?_
  have hkeyword := (total_qualifiers memberQualifiers annotated.2).trans hbare
  dsimp only
  split
  · exact function_stays _ _ _ hkeyword
  · exact otherMember_stays _ hkeyword

theorem service_stays (first : Nat) (leading : List Shape) {c : Cursor} {n : Nat}
    (h : c.total = n) : Stays n Prod.snd (service first leading c) := by
  refine (scan_stays _ ((total_advance c).trans h)).bind fun on hon => ?_
  split
  · exact .fail hon _
  · refine (scan_stays _ ((total_advance on).trans hon)).bind fun brace hbrace => ?_
    split
    · exact .fail hbrace _
    · refine (members_stays serviceMember_stays _ ((total_advance brace).trans hbrace)).bind
        fun inner hclose => ?_
      dsimp only
      split
      · exact .fail hclose _
      · exact (total_skipSemicolon _).trans ((total_advance _).trans hclose)

theorem importDeclaration_stays {c : Cursor} {n : Nat} (h : c.total = n) :
    Stays n Prod.snd c.importDeclaration := by
  refine (scan_stays _ ((total_advance c).trans h)).bind fun stop hstop => ?_
  have hgiven : stop.advance.total = n := (total_advance stop).trans hstop
  dsimp only
  split
  · exact .fail hstop _
  · split
    · exact hgiven
    · have hend : ∀ {children : List Shape} {after : Cursor}, after.total = n →
          Stays n Prod.snd (do
            let last ← after.scan fun _ l => if l.isOp [';'] then .stop else .pass
            if last.atEnd then last.fail (.expected [';'] none)
            else return (Shape.node .importDeclaration c.index last.advance.index
              (.name ((c.advance.lexemesTo stop).flatMap (·.text))) children, last.advance)) := by
        intro children after hafter
        refine (scan_stays _ hafter).bind fun last hlast => ?_
        split
        · exact .fail hlast _
        · exact (total_advance last).trans hlast
      split
      · exact hend ((total_advance _).trans hgiven)
      · exact hend hgiven

theorem moduleMember_stays {c : Cursor} {n : Nat} (h : c.total = n) :
    Stays n Prod.snd c.moduleMember := by
  refine (annotations_stays h).bind fun annotated hbare => ?_
  have hkeyword := (total_qualifiers moduleQualifiers annotated.2).trans hbare
  dsimp only
  split
  · exact importDeclaration_stays hkeyword
  · split
    · exact service_stays _ _ hkeyword
    · split
      · exact function_stays _ _ _ hkeyword
      · exact otherMember_stays _ hkeyword

end Cursor

/-! ## Numbers of tokens -/

namespace Shape

mutual

/-- The numbers of tokens that a node and those below it hold. -/
def numbers : Shape → List Nat
  | node _ first stop _ children => first :: stop :: numbersAll children

/-- The numbers of tokens that nodes and those below them hold. -/
def numbersAll : List Shape → List Nat
  | [] => []
  | s :: ss => numbers s ++ numbersAll ss

end

theorem numbersAll_append (as bs : List Shape) :
    numbersAll (as ++ bs) = numbersAll as ++ numbersAll bs := by
  induction as with
  | nil => simp [numbersAll]
  | cons a as ih => simp [numbersAll, ih]

/-- The numbers of tokens that reading comes to: those of the nodes, or that of the token at
fault. -/
def numbersRead : Except Fault (List Shape) → List Nat
  | .ok members => numbersAll members
  | .error fault => [fault.token]

end Shape

namespace Branch

mutual

theorem number_le_shapes : ∀ (b : Branch) (i : Nat), ∀ k ∈ Shape.numbersAll (b.shapes i),
    k ≤ i + b.words.length
  | .word w, i, k, hk => by
    rw [shapes_word, Shape.numbersAll] at hk
    cases hk
  | .node kind label bs, i, k, hk => by
    rw [shapes_node, Shape.numbersAll, Shape.numbersAll, Shape.numbers, List.append_nil] at hk
    rw [words_node]
    rcases List.mem_cons.1 hk with rfl | hk
    · exact Nat.le_add_right _ _
    · rcases List.mem_cons.1 hk with rfl | hk
      · exact Nat.le_refl _
      · exact number_le_shapesAll bs i k hk

/-- The nodes of branches hold numbers of their own tokens and of the token behind them. -/
theorem number_le_shapesAll : ∀ (bs : List Branch) (i : Nat),
    ∀ k ∈ Shape.numbersAll (shapesAll i bs), k ≤ i + (wordsAll bs).length
  | [], i, k, hk => by
    rw [shapesAll_nil, Shape.numbersAll] at hk
    cases hk
  | b :: bs, i, k, hk => by
    rw [shapesAll_cons, Shape.numbersAll_append, List.mem_append] at hk
    rw [wordsAll_cons, List.length_append]
    rcases hk with hk | hk
    · have := number_le_shapes b i k hk
      omega
    · have := number_le_shapesAll bs _ k hk
      omega

end

end Branch

namespace Shape

/-- A fault stands at one of the lexemes or at their end. -/
theorem token_le {ls : List Lexeme} {fault : Fault} (h : members ls = .error fault) :
    fault.token ≤ ls.length := by
  have hread := @Cursor.members_stays ⟨Cursor.moduleMember, Cursor.moduleMember_lt⟩
    Cursor.moduleMember_stays (fun _ => false) (Cursor.start ls) _ (Nat.zero_add _)
  refine hread.token_le ?_
  unfold members at h
  cases hm : (Cursor.start ls).members _ fun _ => false with
  | error fault' =>
    rw [hm] at h
    cases h
    rfl
  | ok read =>
    rw [hm] at h
    cases h

/-- No number that reading comes to is greater than that of the end. -/
theorem number_le (ls : List Lexeme) : ∀ i ∈ numbersRead (members ls), i ≤ ls.length := by
  intro i hi
  cases hm : members ls with
  | error fault =>
    rw [hm] at hi
    obtain rfl := List.mem_singleton.1 hi
    exact token_le hm
  | ok read =>
    rw [hm] at hi
    have hls : lexemes (ls.map (Word.mk [])) = ls := by
      rw [lexemes, List.map_map]
      exact List.map_id ls
    rw [← hls] at hm
    obtain ⟨items, hwords, hv⟩ := Cursor.exists_of_shapeMembers hm
    rw [hwords, Cursor.members_of_allValid hv] at hm
    cases hm
    have hle := Branch.number_le_shapesAll _ 0 i hi
    rw [Nat.zero_add] at hle
    rw [← hls, hwords, length_lexemes]
    exact hle

end Shape

/-! ## Places -/

namespace Text

/-- Whether an offset is one where reading can fail: one where a token or the end stands or, in a
source that cannot be cut into tokens, that of a quote or a backslash behind others that can. -/
def FailsAt (source : Text) (offset : Nat) : Prop :=
  match source.tokenize with
  | .ok tokens => ∃ t ∈ tokens, t.start = offset
  | .error _ => (∃ c ∈ source[offset]?, c ∈ Lexer.openers)
    ∧ ∃ tokens, tokenize (source.take offset) = .ok tokens

end Text

/-- Whether an error stands at an offset of its source, row and column counted from one. -/
structure ParseError.StandsAt (source : Text) (offset : Nat) (e : ParseError) : Prop where
  le_length : offset ≤ source.length
  line : e.line = (source.rowAndColumn offset).row + 1
  column : e.column = (source.rowAndColumn offset).column + 1
  failsAt : source.FailsAt offset

theorem ParseError.standsAt_ofOffset {source : Text} {offset : Nat} (hle : offset ≤ source.length)
    (hfails : source.FailsAt offset) (cause : Cause) :
    (ofOffset source offset cause).StandsAt source offset := by
  have hplace := source.locate_eq_rowAndColumn offset
  exact ⟨hle, by rw [← hplace]; rfl, by rw [← hplace]; rfl, hfails⟩

namespace Tree

open Lexer

theorem failsAt_tokenStart {source : Text} {tokens : List Token} (h : source.scan = .ok tokens)
    (i : Nat) : tokenStart source tokens i ≤ source.length
      ∧ source.FailsAt (tokenStart source tokens i) := by
  obtain ⟨ws, tail, rfl, -, -, rfl⟩ := exists_words h
  obtain ⟨t, ht, hstart⟩ := exists_token_tokenStart ws tail i
  have hmem := List.mem_of_getElem? ht
  have htokens : Text.tokenize (spell ws ++ tail) = .ok (wordTokens ws tail) := by
    rw [Text.tokenize, h]
    rfl
  rw [hstart, Text.FailsAt, htokens]
  refine ⟨?_, t, hmem, rfl⟩
  rcases List.mem_append.1 hmem with hmem | hmem
  · have hbound := (bounds_of_mem_tokensFrom hmem).2
    simp only [Token.stop, Nat.zero_add] at hbound
    rw [List.length_append]
    omega
  · rw [List.mem_singleton.1 hmem]
    exact Nat.le_refl _

theorem failsAt_fault {source : Text} {fault : LexicalFault} (h : source.scan = .error fault) :
    fault.offset ≤ source.length ∧ source.FailsAt fault.offset := by
  have htokens : source.tokenize = .error fault := by
    rw [Text.tokenize, h]
    rfl
  have hfault := Text.tokenize_take_of_fault htokens
  obtain ⟨c, hc, -⟩ := hfault.1
  rw [Text.FailsAt, htokens]
  exact ⟨(List.getElem?_eq_some_iff.1 hc).1.le, hfault⟩

/-- Every source has a tree, or an error at a place in it; and no number that reading comes to
leaves the tokens. -/
theorem parse_located (source : Text) :
    ((∃ tree, parse source = .ok tree)
      ∨ ∃ e offset, parse source = .error e ∧ e.StandsAt source offset)
    ∧ ∀ tokens, source.tokenize = .ok tokens →
      ∀ i ∈ Shape.numbersRead (Shape.members (tokens.dropLast.map (·.toLexeme))),
        i < tokens.length := by
  constructor
  · have herror : ∀ {offset : Nat} (cause : Cause), offset ≤ source.length ∧ source.FailsAt offset →
        ∃ e offset', (.error (.ofOffset source offset cause) : Except ParseError Tree) = .error e
          ∧ e.StandsAt source offset' :=
      fun cause h => ⟨_, _, rfl, ParseError.standsAt_ofOffset h.1 h.2 cause⟩
    unfold parse
    split
    · rename_i fault hscan
      exact .inr (herror _ (failsAt_fault hscan))
    · rename_i tokens hscan
      split
      · exact .inr (herror _ (failsAt_tokenStart hscan _))
      · exact .inl ⟨_, rfl⟩
  · intro tokens htokens i hi
    obtain ⟨ts, hscan⟩ := map_ok htokens
    rw [Text.tokenize, hscan] at htokens
    cases htokens
    rw [List.dropLast_concat] at hi
    have hle := Shape.number_le _ i hi
    rw [List.length_map] at hle
    rw [List.length_append, List.length_singleton]
    omega

theorem parse_located_unclosed :
    let source : Text := "import a;\nservice on x \x7b\n function f(".toList
    (∃ e offset, parse source = .error e ∧ e = ⟨.unbalanced ['('], 3, 12⟩
        ∧ e.StandsAt source offset)
      ∧ ∃ tokens, source.tokenize = .ok tokens ∧ tokens.length = 11
        ∧ ∀ i ∈ Shape.numbersRead (Shape.members (tokens.dropLast.map (·.toLexeme))), i < 11 := by
  intro source
  have hrun : (match parse source with
        | .error e => e = ⟨.unbalanced ['('], 3, 12⟩
        | .ok _ => false) = true
      ∧ (source.tokenize.toOption.any (·.length = 11)) = true := by
    simp only [source]
    rw [String.toList_ofList]
    decide +kernel
  obtain ⟨hparse, htokens⟩ := hrun
  obtain ⟨tokens, htokens, hlength⟩ := exists_of_any htokens
  have hlength : tokens.length = 11 := by simpa using hlength
  obtain ⟨htree | ⟨e, offset, he, hstands⟩, hnumbers⟩ := parse_located source
  · obtain ⟨tree, htree⟩ := htree
    rw [htree] at hparse
    cases hparse
  · rw [he] at hparse
    refine ⟨⟨e, offset, he, by simpa using hparse, hstands⟩, tokens, htokens, hlength, ?_⟩
    exact hlength ▸ hnumbers tokens htokens

end Tree

end BalMediation
