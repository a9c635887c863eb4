import BalMediation.Proofs.WellFormed
import Mathlib.Data.List.Forall2

/-!
# Spacing

Blanks and comments between tokens have no say in a tree. Two sources of the same lexemes are both
read or both refused: their trees have the same nodes over tokens of the same numbers, and their
errors have one cause at tokens of the same number (`parse_of_toLexeme_eq`).

Both trees are one list of shapes, put where the tokens of either source stand. So it is enough to
follow a shape to the two nodes it becomes (`corresponds_shapesAll`). What a shape can say without
an offset is where the nodes agree: its first and last token, and a text that is a single token or
was joined from tokens.
-/

namespace BalMediation

open Lexer Branch Phrase

/-- The kinds of nodes whose text holds no blanks and no comments. -/
def verbatimKinds : List Kind :=
  .importDeclaration :: wordKinds

/-- Whether two nodes, in sources with the tokens `ts` and `us`, begin with tokens of one number and
end with tokens of one number. -/
structure Node.Alike (ts us : List Token) (m n : Node) : Prop where
  kind : m.kind = n.kind
  first : ∃ (i : Nat) (a b : Token), ts[i]? = some a ∧ us[i]? = some b
    ∧ m.start = a.start ∧ n.start = b.start
  last : ∃ (j : Nat) (a b : Token), ts[j]? = some a ∧ us[j]? = some b
    ∧ m.stop = a.stop ∧ n.stop = b.stop
  value : m.kind ∈ verbatimKinds → m.value = n.value

/-- Whether two nodes are alike, and so are the nodes below them, one by one. -/
inductive Node.Corresponds (ts us : List Token) : Node → Node → Prop
  | node {m n : Node} : m.Alike ts us n →
      List.Forall₂ (Corresponds ts us) m.children n.children → Corresponds ts us m n

theorem Branch.Serial.words_ne_nil {ks : List Kind} {bs : List Branch} (h : Serial ks bs) :
    ∀ b ∈ bs, b.words ≠ [] := by
  intro b hb
  rcases h b hb with ⟨w, rfl, -⟩ | ⟨kind, label, cs, rfl, -, hcs⟩
  · simp
  · simpa using hcs

namespace Tree

/-- The tokens of a source that is spelled by words, with its end as the last one. -/
def wordTokens (ws : List Word) (tail : Text) : List Token :=
  tokensFrom 0 ws ++ [Token.eof (spell ws ++ tail).length]

theorem tokenize_eq {source : Text} {ts : List Token} (h : source.tokenize = .ok ts) :
    ∃ ws tail, source = spell ws ++ tail ∧ ts = wordTokens ws tail
      ∧ source.scan = .ok (tokensFrom 0 ws) := by
  obtain ⟨tokens, hscan⟩ := map_ok h
  obtain ⟨ws, tail, rfl, -, -, rfl⟩ := exists_words hscan
  rw [Text.tokenize, hscan] at h
  cases h
  exact ⟨ws, tail, rfl, rfl, hscan⟩

theorem length_tokensFrom (pos : Nat) (ws : List Word) :
    (tokensFrom pos ws).length = ws.length := by
  rw [← length_lexemes ws, ← tokensFrom_toLexeme pos ws, List.length_map]

theorem exists_token_start {ws pre rest : List Word} (h : ws = pre ++ rest) (tail : Text) :
    ∃ t, (wordTokens ws tail)[pre.length]? = some t
      ∧ t.start = (spell pre ++ gapBefore tail rest).length := by
  subst h
  have hlen := length_tokensFrom 0 pre
  rw [wordTokens, tokensFrom_append, List.append_assoc, List.getElem?_append_right (by omega), hlen,
    Nat.sub_self]
  cases rest with
  | nil => exact ⟨_, rfl, by simp [Token.eof]⟩
  | cons w rest => exact ⟨_, rfl, by simp⟩

theorem exists_token_stop {ws pre rest : List Word} (h : ws = pre ++ rest) (hpre : pre ≠ [])
    (tail : Text) :
    ∃ t, (wordTokens ws tail)[pre.length - 1]? = some t ∧ t.stop = (spell pre).length := by
  rcases List.eq_nil_or_concat pre with rfl | ⟨init, w, rfl⟩
  · exact absurd rfl hpre
  subst h
  have hlen := length_tokensFrom 0 init
  rw [List.concat_eq_append, List.length_append, List.length_singleton, Nat.add_sub_cancel,
    wordTokens, List.append_assoc, tokensFrom_append, List.append_assoc,
    List.getElem?_append_right (by omega), hlen, Nat.sub_self]
  refine ⟨_, rfl, ?_⟩
  simp [Token.stop, Nat.add_assoc]

/-- The node that a shape becomes begins and ends at the tokens with the numbers of the shape. -/
theorem exists_placed {ws pre mid post : List Word} (h : ws = pre ++ mid ++ post)
    (hne : pre ++ mid ≠ []) (tail : Text) (kind : Kind) (label : Label) (children : List Shape) :
    let n := place (spell ws ++ tail) (wordMarks ws tail)
      (.node kind pre.length (pre.length + mid.length) label children)
    (∃ a, (wordTokens ws tail)[pre.length]? = some a ∧ n.start = a.start)
      ∧ (∃ b, (wordTokens ws tail)[pre.length + mid.length - 1]? = some b ∧ n.stop = b.stop)
      ∧ n.value = labelled mid label := by
  have hsplit := h.trans (List.append_assoc _ _ _)
  obtain ⟨a, ha, hstart⟩ := exists_token_start hsplit tail
  obtain ⟨b, hb, hstop⟩ := exists_token_stop h hne tail
  have hmark := landmark_wordMarks tail hsplit
  have hbefore := landmarkBefore_wordMarks tail h
  rw [List.length_append] at hb hbefore
  refine ⟨⟨a, ha, hmark.1.trans hstart.symm⟩, ⟨b, hb, hbefore.1.trans hstop.symm⟩, ?_⟩
  have hlabel := labelText_wordMarks tail h label
  rw [← gapBefore_append, ← hmark.1, ← hbefore.1] at hlabel
  exact hlabel

section Two

variable {ws vs : List Word} {tail tail' : Text}

theorem labelled_congr {kind : Kind} {label : Label} {bs : List Branch} (hs : Sound kind label bs)
    (hk : kind ∈ verbatimKinds) {mid : List Word} (h : lexemes mid = lexemes (wordsAll bs)) :
    labelled (wordsAll bs) label = labelled mid label := by
  rcases List.mem_cons.1 hk with rfl | hk
  · obtain ⟨-, name, -, -, rfl, -⟩ := hs.declares rfl
    rfl
  · obtain ⟨rfl, w, rfl⟩ := hs.single hk
    obtain ⟨v, rfl, hv⟩ : ∃ v, mid = [v] ∧ v.lexeme = w.lexeme := by
      simpa [lexemes, List.map_eq_singleton_iff] using h
    simp [labelled, caption, hv]

theorem exists_split {mid as bs : List Word} (h : lexemes mid = lexemes (as ++ bs)) :
    ∃ as' bs', mid = as' ++ bs' ∧ lexemes as' = lexemes as ∧ lexemes bs' = lexemes bs := by
  rw [lexemes_append] at h
  exact List.map_eq_append_iff.1 h

mutual

/-- A shape of a branch becomes corresponding nodes in two sources of the same lexemes. -/
theorem corresponds_shapes : ∀ (b : Branch) {pre post pre' mid' post' : List Word}, All Sound b →
    ws = pre ++ b.words ++ post → vs = pre' ++ mid' ++ post' → lexemes pre' = lexemes pre →
    lexemes mid' = lexemes b.words → pre ++ b.words ≠ [] →
    List.Forall₂ (Node.Corresponds (wordTokens ws tail) (wordTokens vs tail'))
      (placeAll (spell ws ++ tail) (wordMarks ws tail) (b.shapes pre.length))
      (placeAll (spell vs ++ tail') (wordMarks vs tail') (b.shapes pre.length))
  | .word w, _, _, _, _, _, _, _, _, _, _, _ => by
    rw [shapes_word, placeAll, placeAll]
    exact .nil
  | .node kind label bs, pre, post, pre', mid', post', hs, h, h', hpre, hmid, hne => by
    rw [all_node] at hs
    rw [words_node] at h hmid hne
    have hlen : pre'.length = pre.length := by simpa using congrArg List.length hpre
    have hlen' : mid'.length = (wordsAll bs).length := by simpa using congrArg List.length hmid
    have hne' : pre' ++ mid' ≠ [] := by
      intro hnil
      have := congrArg List.length hnil
      rw [List.length_append, hlen, hlen', ← List.length_append] at this
      exact hne (List.eq_nil_of_length_eq_zero this)
    obtain ⟨⟨a, ha, hstart⟩, ⟨b, hb, hstop⟩, hvalue⟩ :=
      exists_placed h hne tail kind label (shapesAll pre.length bs)
    obtain ⟨⟨a', ha', hstart'⟩, ⟨b', hb', hstop'⟩, hvalue'⟩ :=
      exists_placed h' hne' tail' kind label (shapesAll pre.length bs)
    rw [hlen] at ha'
    rw [hlen, hlen'] at hb'
    rw [hlen, hlen'] at hstart' hstop' hvalue'
    rw [shapes_node, placeAll, placeAll, placeAll, placeAll]
    refine .cons (.node ⟨rfl, ⟨_, a, a', ha, ha', hstart, hstart'⟩,
      ⟨_, b, b', hb, hb', hstop, hstop'⟩, fun hk => ?_⟩ ?_) .nil
    · rw [hvalue, hvalue']
      exact labelled_congr hs.1 hk hmid
    · exact corresponds_shapesAll bs hs.2 h h' hpre hmid fun _ => hs.1.begins

theorem corresponds_shapesAll : ∀ (bs : List Branch) {pre post pre' mid' post' : List Word},
    AllIn Sound bs → ws = pre ++ wordsAll bs ++ post → vs = pre' ++ mid' ++ post' →
    lexemes pre' = lexemes pre → lexemes mid' = lexemes (wordsAll bs) →
    (pre = [] → ∀ b ∈ bs.head?, b.words ≠ []) →
    List.Forall₂ (Node.Corresponds (wordTokens ws tail) (wordTokens vs tail'))
      (placeAll (spell ws ++ tail) (wordMarks ws tail) (shapesAll pre.length bs))
      (placeAll (spell vs ++ tail') (wordMarks vs tail') (shapesAll pre.length bs))
  | [], _, _, _, _, _, _, _, _, _, _, _ => by
    rw [shapesAll_nil, placeAll, placeAll]
    exact .nil
  | b :: bs, pre, post, pre', mid', post', hs, h, h', hpre, hmid, hbegins => by
    rw [allIn_cons] at hs
    rw [wordsAll_cons] at h hmid
    obtain ⟨as', bs', rfl, has, hbs⟩ := exists_split hmid
    -- The first branch has words if nothing stands in front, so something stands in front of the
    -- others: a shape without tokens still ends with one.
    have hne : pre ++ b.words ≠ [] := by
      intro hnil
      obtain ⟨rfl, hb⟩ := List.append_eq_nil_iff.1 hnil
      exact hbegins rfl b rfl hb
    have hw : ws = pre ++ b.words ++ (wordsAll bs ++ post) := by simpa using h
    have hv : vs = pre' ++ as' ++ (bs' ++ post') := by simpa using h'
    have hfirst := corresponds_shapes b hs.1 hw hv hpre has hne
    rw [← List.append_assoc] at hw hv
    have hothers := corresponds_shapesAll bs hs.2 hw hv (by simp [hpre, has]) hbs
      fun hnil => absurd hnil hne
    rw [List.length_append] at hothers
    rw [shapesAll_cons, placeAll_append, placeAll_append]
    exact List.rel_append hfirst hothers

end

end Two

theorem exists_token_tokenStart (ws : List Word) (tail : Text) (i : Nat) :
    ∃ t, (wordTokens ws tail)[min i ws.length]? = some t
      ∧ tokenStart (spell ws ++ tail) (tokensFrom 0 ws) i = t.start := by
  have hlen := length_tokensFrom 0 ws
  rcases Nat.lt_or_ge i ws.length with hi | hi
  · have hget := List.getElem?_eq_getElem (hlen ▸ hi)
    rw [Nat.min_eq_left (by omega), wordTokens, List.getElem?_append_left (by omega), hget]
    exact ⟨_, rfl, by rw [tokenStart, hget]; rfl⟩
  · have hget := List.getElem?_eq_none (hlen ▸ hi)
    rw [Nat.min_eq_right hi, wordTokens, List.getElem?_append_right (by omega), hlen, Nat.sub_self]
    exact ⟨_, rfl, by rw [tokenStart, hget]; rfl⟩

/-- Sources of the same lexemes have corresponding trees, or errors of one cause at tokens of one
number. -/
theorem parse_of_toLexeme_eq {s t : Text} {ts us : List Token} (hs : s.tokenize = .ok ts)
    (ht : t.tokenize = .ok us) (h : ts.map (·.toLexeme) = us.map (·.toLexeme)) :
    match parse s, parse t with
    | .ok a, .ok b => a.root.kind = b.root.kind ∧ a.root.value = b.root.value
        ∧ List.Forall₂ (Node.Corresponds ts us) a.root.children b.root.children
    | .error e, .error f => e.cause = f.cause ∧ ∃ (i : Nat) (x y : Token), ts[i]? = some x
        ∧ us[i]? = some y ∧ e = .ofOffset s x.start e.cause ∧ f = .ofOffset t y.start f.cause
    | _, _ => False := by
  obtain ⟨ws, tail, rfl, rfl, hscan⟩ := tokenize_eq hs
  obtain ⟨vs, tail', rfl, rfl, hscan'⟩ := tokenize_eq ht
  have hlex : lexemes ws = lexemes vs := by
    have hend : ∀ (us : List Word) (end' : Text), (wordTokens us end').map (·.toLexeme)
        = lexemes us ++ [⟨.eof, []⟩] := by
      intro us end'
      rw [wordTokens, List.map_append, tokensFrom_toLexeme]
      rfl
    rw [hend, hend] at h
    exact List.append_cancel_right h
  have hlen : ws.length = vs.length := by simpa using congrArg List.length hlex
  simp only [parse, hscan, hscan', tokensFrom_toLexeme, ← hlex]
  cases hm : Shape.members (lexemes ws) with
  | error fault =>
    obtain ⟨x, hx, hstart⟩ := exists_token_tokenStart ws tail fault.token
    obtain ⟨y, hy, hstart'⟩ := exists_token_tokenStart vs tail' fault.token
    rw [← hlen] at hy
    exact ⟨rfl, _, x, y, hx, hy, by rw [← hstart]; rfl, by rw [← hstart']; rfl⟩
  | ok members =>
    obtain ⟨items, rfl, hv⟩ := Cursor.exists_of_shapeMembers hm
    obtain rfl : _ = members := Except.ok.inj ((Cursor.members_of_allValid hv).symm.trans hm)
    refine ⟨rfl, rfl, ?_⟩
    have hwords : moduleGrammar.words items
        = [] ++ wordsAll (items.map moduleGrammar.itemBranch) ++ [] := by
      rw [List.nil_append, List.append_nil, Grammar.words]
    have hvs : vs = [] ++ vs ++ [] := by rw [List.nil_append, List.append_nil]
    exact corresponds_shapesAll _ (Grammar.allIn_sound ModuleMember.all_sound hv) hwords hvs rfl
      hlex.symm fun _ b hb => (ModuleMember.serial hv).words_ne_nil b (List.mem_of_mem_head? hb)

theorem parse_of_toLexeme_eq_service :
    let s : Text := "import a/b;service on \x7bint n;\x7d".toList
    let t : Text := "import a // b\n/b ;\nservice on// x\n\x7b int n; \x7d".toList
    ∃ ts us a b, s.tokenize = .ok ts ∧ t.tokenize = .ok us ∧ s ≠ t
      ∧ parse s = .ok a ∧ parse t = .ok b ∧ (∃ n ∈ a.root.walk, n.stop < n.start)
      ∧ List.Forall₂ (Node.Corresponds ts us) a.root.children b.root.children := by
  intro s t
  have hrun : (s.tokenize.toOption.any fun ts => t.tokenize.toOption.any fun us =>
      ts.map (·.toLexeme) = us.map (·.toLexeme) && (parse s).toOption.any fun a =>
        (a.root.walk.any fun n => n.stop < n.start) && (parse t).toOption.isSome) = true := by
    simp only [s, t]
    rw [String.toList_ofList, String.toList_ofList]
    decide +kernel
  have hne : s ≠ t := by
    simp only [s, t]
    rw [String.toList_ofList, String.toList_ofList]
    decide
  obtain ⟨ts, hs, hrun⟩ := exists_of_any hrun
  obtain ⟨us, ht, hrun⟩ := exists_of_any hrun
  rw [Bool.and_eq_true, decide_eq_true_eq] at hrun
  obtain ⟨a, ha, hrun'⟩ := exists_of_any hrun.2
  rw [Bool.and_eq_true, List.any_eq_true] at hrun'
  obtain ⟨⟨n, hn, hempty⟩, hsome⟩ := hrun'
  obtain ⟨b, hb⟩ := Option.isSome_iff_exists.mp hsome
  have hcorresponds := parse_of_toLexeme_eq hs ht hrun.1
  simp only [ha, ok_of_toOption hb] at hcorresponds
  exact ⟨ts, us, a, b, hs, ht, hne, ha, ok_of_toOption hb, ⟨n, hn, of_decide_eq_true hempty⟩,
    hcorresponds.2.2⟩

end Tree

end BalMediation
