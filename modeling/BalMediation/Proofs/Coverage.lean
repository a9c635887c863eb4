import BalMediation.Proofs.WellFormed

/-!
# Coverage

Reading drops no token: whatever lies in no member of a module is a semicolon between members, and
the same holds between the braces of a service (`covers_of_parse`). A member begins with a token and
ends with one.
-/

namespace BalMediation

open Lexer Branch

/-- Whether a token ends before a node begins, or begins behind its end. -/
def Token.Apart (t : Token) (n : Node) : Prop :=
  t.stop ≤ n.start ∨ n.stop ≤ t.start

/-- Whether nodes cover tokens: a token lies in one node and apart from all others, or it is a
semicolon apart from all of them, and the nodes begin and end with tokens. -/
structure Covers (ts : List Token) (ns : List Node) : Prop where
  token : ∀ t ∈ ts, t.isOp [';'] = true ∧ (∀ n ∈ ns, t.Apart n)
    ∨ ∃ as n bs, ns = as ++ n :: bs ∧ t.liesIn n = true ∧ ∀ m ∈ as ++ bs, t.Apart m
  first : ∀ n ∈ ns, ∃ t ∈ ts, t.start = n.start
  last : ∀ n ∈ ns, ∃ t ∈ ts, t.stop = n.stop

namespace Covers

theorem nil : Covers [] [] :=
  ⟨by simp, by simp, by simp⟩

theorem semicolon {t : Token} {ts : List Token} {ns : List Node} (h : Covers ts ns)
    (ht : t.isOp [';'] = true) (hns : ∀ n ∈ ns, t.stop ≤ n.start) : Covers (t :: ts) ns := by
  refine ⟨fun u hu => ?_, fun n hn => ?_, fun n hn => ?_⟩
  · rcases List.mem_cons.1 hu with rfl | hu
    · exact .inl ⟨ht, fun n hn => .inl (hns n hn)⟩
    · exact h.token u hu
  · obtain ⟨u, hu, hstart⟩ := h.first n hn
    exact ⟨u, List.mem_cons_of_mem _ hu, hstart⟩
  · obtain ⟨u, hu, hstop⟩ := h.last n hn
    exact ⟨u, List.mem_cons_of_mem _ hu, hstop⟩

theorem member {us ts : List Token} {n : Node} {ns : List Node} (h : Covers ts ns)
    (hus : ∀ t ∈ us, t.liesIn n = true) (hfirst : ∃ t ∈ us, t.start = n.start)
    (hlast : ∃ t ∈ us, t.stop = n.stop) (hts : ∀ t ∈ ts, n.stop ≤ t.start)
    (hns : ∀ m ∈ ns, n.stop ≤ m.start) : Covers (us ++ ts) (n :: ns) := by
  refine ⟨fun t ht => ?_, fun m hm => ?_, fun m hm => ?_⟩
  · rcases List.mem_append.1 ht with ht | ht
    · refine .inr ⟨[], n, ns, rfl, hus t ht, fun m hm => .inl ?_⟩
      have hin := hus t ht
      have hm := hns m (by simpa using hm)
      simp only [Token.liesIn, Bool.and_eq_true, decide_eq_true_eq] at hin
      omega
    · rcases h.token t ht with ⟨hop, hap⟩ | ⟨as, m, bs, rfl, hin, hap⟩
      · refine .inl ⟨hop, fun m hm => ?_⟩
        rcases List.mem_cons.1 hm with rfl | hm
        · exact .inr (hts t ht)
        · exact hap m hm
      · refine .inr ⟨n :: as, m, bs, rfl, hin, fun k hk => ?_⟩
        rcases List.mem_cons.1 hk with rfl | hk
        · exact .inr (hts t ht)
        · exact hap k hk
  · rcases List.mem_cons.1 hm with rfl | hm
    · obtain ⟨t, ht, hstart⟩ := hfirst
      exact ⟨t, List.mem_append_left _ ht, hstart⟩
    · obtain ⟨t, ht, hstart⟩ := h.first m hm
      exact ⟨t, List.mem_append_right _ ht, hstart⟩
  · rcases List.mem_cons.1 hm with rfl | hm
    · obtain ⟨t, ht, hstop⟩ := hlast
      exact ⟨t, List.mem_append_left _ ht, hstop⟩
    · obtain ⟨t, ht, hstop⟩ := h.last m hm
      exact ⟨t, List.mem_append_right _ ht, hstop⟩

end Covers

namespace Branch

theorem exists_first_token {ws : List Word} (h : ws ≠ []) (before next : Text) :
    ∃ t ∈ tokensFrom before.length ws, t.start = (before ++ gapBefore next ws).length := by
  obtain ⟨w, ws, rfl⟩ := List.exists_cons_of_ne_nil h
  exact ⟨_, List.mem_cons_self, by simp⟩

theorem exists_last_token {ws : List Word} (h : ws ≠ []) (before : Text) :
    ∃ t ∈ tokensFrom before.length ws, t.stop = (before ++ spell ws).length := by
  obtain ⟨ws, w, rfl⟩ := List.eq_nil_or_concat ws |>.resolve_left h
  rw [List.concat_eq_append, tokensFrom_append]
  refine ⟨_, List.mem_append_right _ List.mem_cons_self, ?_⟩
  simp only [Token.stop, spell_append, spell_cons, spell_nil, List.length_append, List.length_nil]
  omega

/-- The nodes of members with semicolons between cover the tokens of their words. -/
theorem Serial.covers {ks : List Kind} {bs : List Branch} (h : Serial ks bs) (before next : Text) :
    Covers (tokensFrom before.length (wordsAll bs)) (nodesAll before next bs) := by
  induction bs generalizing before with
  | nil => simpa [tokensFrom] using Covers.nil
  | cons b bs ih =>
    have hbs := ih (fun c hc => h c (List.mem_cons_of_mem _ hc)) (before ++ spell b.words)
    have hns : ∀ n ∈ nodesAll (before ++ spell b.words) next bs,
        (before ++ spell b.words).length ≤ n.start := by
      intro n hn
      have := (bounds_of_mem_nodesAll hn).1
      simp only [List.length_append] at this ⊢
      omega
    have hts : ∀ t ∈ tokensFrom (before ++ spell b.words).length (wordsAll bs),
        (before ++ spell b.words).length ≤ t.start := by
      intro t ht
      have := (bounds_of_mem_tokensFrom ht).1
      omega
    rw [wordsAll_cons, nodesAll_cons, tokensFrom_append, ← List.length_append]
    rcases h b List.mem_cons_self with ⟨w, rfl, hw⟩ | ⟨kind, label, cs, rfl, -, hcs⟩
    · rw [words_word] at *
      refine hbs.semicolon hw fun n hn => Nat.le_trans ?_ (hns n hn)
      simp [Token.stop, Nat.add_assoc]
    · rw [words_node] at *
      refine hbs.member (fun t ht => ?_) (exists_first_token hcs _ _) (exists_last_token hcs _)
        hts hns
      have hb := bounds_of_mem_tokensFrom ht
      obtain ⟨w, ws, hw⟩ := List.exists_cons_of_ne_nil hcs
      rw [hw] at hb
      simpa [Token.liesIn, nodeOver, hw] using hb

theorem filter_nodesAll_of_forall_mem {before next : Text} {bs : List Branch} {ks : List Kind}
    (h : ∀ kind ∈ kinds bs, kind ∈ ks) :
    (nodesAll before next bs).filter (fun n => ks.contains n.kind) = nodesAll before next bs := by
  rw [List.filter_eq_self]
  intro n hn
  simpa using h _ (kind_mem_kinds hn)

theorem Serial.kinds_mem {ks : List Kind} {bs : List Branch} (h : Serial ks bs) :
    ∀ kind ∈ kinds bs, kind ∈ ks := by
  induction bs with
  | nil => simp [kinds]
  | cons b bs ih =>
    have hbs := ih fun c hc => h c (List.mem_cons_of_mem _ hc)
    rcases h b List.mem_cons_self with ⟨w, rfl, -⟩ | ⟨kind, label, cs, rfl, hk, -⟩
    · exact hbs
    · intro k hmem
      rcases List.mem_cons.1 hmem with rfl | hmem
      · exact hk
      · exact hbs k hmem

/-- The nodes of a service: what stands in front of its body, a brace, members and a brace. -/
theorem nodesAll_house (pre : List Word) (next : Text) (front members : List Branch)
    (opening closing : Word) (back : List Word) :
    ∃ (gap : Text) (o c : Node),
      nodesAll (spell pre) next (front ++ leaf .openBrace opening ::
          (members ++ leaf .closeBrace closing :: back.map word))
        = nodesAll (spell pre) gap front
          ++ o :: (nodesAll (spell (pre ++ wordsAll front ++ [opening])) closing.gap members ++ [c])
      ∧ o.kind = .openBrace ∧ o.stop = (spell (pre ++ wordsAll front ++ [opening])).length
      ∧ c.kind = .closeBrace
      ∧ c.start = (spell (pre ++ wordsAll front ++ [opening] ++ wordsAll members)).length
        + closing.gap.length := by
  refine ⟨opening.gap, nodeOver (spell (pre ++ wordsAll front))
    (gapBefore closing.gap (wordsAll members)) .openBrace .own [opening] [],
    nodeOver (spell (pre ++ wordsAll front ++ [opening] ++ wordsAll members))
      (gapBefore next back) .closeBrace .own [closing] [], ?_, rfl, ?_, rfl, ?_⟩
  · simp [leaf]
  · simp [nodeOver]
  · simp [nodeOver, Nat.add_assoc]

/-- The members of a service cover the tokens between its braces. -/
theorem Houses.covers {bs : List Branch} (h : Houses bs) {pre post : List Word} {next : Text}
    (hws : ∀ w ∈ pre ++ wordsAll bs ++ post, w.lexeme.text ≠ []) {s : Node}
    (hs : s.children = nodesAll (spell pre) next bs) :
    ∃ o c, s.childrenOf [.openBrace] = [o] ∧ s.childrenOf [.closeBrace] = [c]
      ∧ Covers ((tokensFrom 0 (pre ++ wordsAll bs ++ post)).filter
          fun t => o.stop ≤ t.start && t.stop ≤ c.start) (s.childrenOf memberKinds) := by
  obtain ⟨front, opening, members, closing, back, rfl, hfront, hmembers⟩ := h
  obtain ⟨gap, o, c, hnodes, hok, hostop, hck, hcstart⟩ :=
    nodesAll_house pre next front members opening closing back
  have hmem := hmembers.kinds_mem
  have hkinds : ∀ ks : List Kind, ks ⊆ .openBrace :: .closeBrace :: memberKinds →
      s.childrenOf ks = [o].filter (fun n => ks.contains n.kind)
        ++ ((nodesAll (spell (pre ++ wordsAll front ++ [opening])) closing.gap members).filter
          (fun n => ks.contains n.kind) ++ [c].filter (fun n => ks.contains n.kind)) := by
    intro ks hks
    rw [Node.childrenOf, hs, hnodes, List.filter_append,
      filter_nodesAll_of_forall_not_mem fun kind hk hin => hfront kind hk (hks hin),
      List.nil_append, ← List.singleton_append, List.filter_append, List.filter_append]
  have hbrace : ∀ brace ∉ memberKinds, (nodesAll (spell (pre ++ wordsAll front ++ [opening]))
      closing.gap members).filter (fun n => [brace].contains n.kind) = [] := by
    intro brace hb
    refine filter_nodesAll_of_forall_not_mem fun kind hk hin => hb ?_
    rw [← List.mem_singleton.1 hin]
    exact hmem kind hk
  refine ⟨o, c, ?_, ?_, ?_⟩
  · rw [hkinds _ (by decide), hbrace _ (by decide)]
    simp [hok, hck]
  · rw [hkinds _ (by decide), hbrace _ (by decide)]
    simp [hok, hck]
  · have hwords : pre ++ wordsAll (front ++ leaf .openBrace opening ::
        (members ++ leaf .closeBrace closing :: back.map word)) ++ post
        = pre ++ wordsAll front ++ [opening] ++ wordsAll members
          ++ (closing :: (back ++ post)) := by
      simp
    rw [hwords] at hws ⊢
    rw [hkinds _ (by decide), filter_nodesAll_of_forall_mem hmem,
      filter_tokensFrom hws (Nat.le_of_eq hostop.symm) (fun _ => by omega) (by omega)
        (Nat.le_of_eq hcstart)]
    have ho : memberKinds.contains o.kind = false := by
      rw [hok]
      decide
    have hc : memberKinds.contains c.kind = false := by
      rw [hck]
      decide
    simp only [List.filter_singleton, ho, hc, cond_false, List.nil_append, List.append_nil]
    exact hmembers.covers _ _

end Branch

namespace Tree

/-- The members of a module cover its tokens, and the members of a service those between its
braces. -/
theorem covers_of_parse {source : Text} {tree : Tree} (h : parse source = .ok tree) :
    ∃ tokens, source.scan = .ok tokens ∧ Covers tokens tree.root.children
      ∧ ∀ s ∈ tree.root.walk, s.kind = .serviceDeclaration →
        ∃ o c, s.childrenOf [.openBrace] = [o] ∧ s.childrenOf [.closeBrace] = [c]
          ∧ Covers (tokens.filter fun t => o.stop ≤ t.start && t.stop ≤ c.start)
            (s.childrenOf memberKinds) := by
  obtain ⟨items, tail, rfl, hv, hl, ht, rfl⟩ := exists_of_parse h
  refine ⟨_, scan_of_legible hl ht, ?_, fun s hs hkind => ?_⟩
  · have hserial : Serial Kind.all (items.map Phrase.moduleGrammar.itemBranch) := by
      refine Phrase.Grammar.serial (fun m => ?_) hv
      cases m <;> exact ⟨_, _, _, rfl, by decide⟩
    exact hserial.covers [] tail
  · simp only [ofBranches, Node.walk, List.mem_cons] at hs
    rcases hs with rfl | hs
    · cases hkind
    · have hsound := Phrase.Grammar.allIn_sound Phrase.ModuleMember.all_sound hv
      obtain ⟨kind, label, bs, pre, post, hb, hw, rfl⟩ := exists_branch _ [] tail hsound s hs
      have hne := hl.text_ne_nil
      rw [Phrase.Grammar.words, hw] at hne ⊢
      exact (hb.houses hkind).covers hne rfl

theorem covers_of_parse_service :
    let source : Text :=
      ";service on x \x7b ; int a = 1; ; resource function get b() \x7b\x7d \x7d;;".toList
    ∃ tree tokens, parse source = .ok tree ∧ source.scan = .ok tokens
      ∧ Covers tokens tree.root.children
      ∧ ∃ s ∈ tree.root.walk, s.kind = .serviceDeclaration ∧ (s.childrenOf memberKinds).length = 2
        ∧ ∃ o c, s.childrenOf [.openBrace] = [o] ∧ s.childrenOf [.closeBrace] = [c]
          ∧ Covers (tokens.filter fun t => o.stop ≤ t.start && t.stop ≤ c.start)
            (s.childrenOf memberKinds) := by
  intro source
  have hrun : ((parse source).toOption.any fun tree => tree.root.walk.any fun s =>
      s.kind = .serviceDeclaration && (s.childrenOf memberKinds).length = 2) = true := by
    simp only [source]
    rw [String.toList_ofList]
    decide +kernel
  obtain ⟨tree, hparse, hrun⟩ := exists_of_any hrun
  obtain ⟨tokens, hscan, hcovers, hservices⟩ := covers_of_parse hparse
  obtain ⟨s, hs, hkind⟩ := List.any_eq_true.1 hrun
  simp only [Bool.and_eq_true, decide_eq_true_eq] at hkind
  exact ⟨tree, tokens, hparse, hscan, hcovers, s, hs, hkind.1, hkind.2, hservices s hs hkind.1⟩

end Tree

end BalMediation
