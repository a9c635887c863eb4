import BalMediation.Proofs.Balance

/-!
# Groups

From an opening bracket, skipping a group reads the shortest run of tokens that is properly nested,
if there is one. Otherwise it fails, at the first closing bracket that does not match or at the
innermost bracket that is still open at the end (`skipGroup_outcome`).

A list of tokens ends where the source does.
-/

namespace BalMediation

open Cursor

/-! ## Open brackets and their numbers -/

/-- The brackets open behind some lexemes with their numbers, innermost first; the lexemes are
numbered from `k`. -/
inductive Opened (k : Nat) : List (Nat × Bracket) → List Lexeme → Prop
  | nil {ns : List Lexeme} : Nested ns → Opened k [] ns
  | cons {opened : List (Nat × Bracket)} {front inner : List Lexeme} {o : Lexeme} {b : Bracket} :
      Opened k opened front → o.opens? = some b → Nested inner →
      Opened k ((k + front.length, b) :: opened) (front ++ o :: inner)

namespace Opened

variable {k i : Nat} {b : Bracket} {bs : List Bracket} {opened : List (Nat × Bracket)}
  {as ns : List Lexeme} {l : Lexeme}

theorem append (h : Opened k opened as) (hns : Nested ns) : Opened k opened (as ++ ns) := by
  cases h with
  | nil has => exact .nil (has.append hns)
  | cons hf ho hi =>
    rw [List.append_assoc, List.cons_append]
    exact .cons hf ho (hi.append hns)

theorem opens (h : Opened k opened as) (hl : l.opens? = some b) :
    Opened k ((k + as.length, b) :: opened) (as ++ [l]) :=
  .cons h hl .nil

theorem single (hl : l.opens? = some b) : Opened k [(k, b)] [l] := by
  have hnil : Opened k [] [] := .nil .nil
  exact hnil.opens hl

theorem plain (h : Opened k opened as) (ho : l.opens? = none) (hc : l.closes? = none) :
    Opened k opened (as ++ [l]) :=
  h.append (.plain ho hc .nil)

theorem closes (h : Opened k ((i, b) :: opened) as) (hl : l.closes? = some b) :
    Opened k opened (as ++ [l]) := by
  cases h with
  | cons hf ho hi =>
    rw [List.append_assoc]
    refine hf.append ?_
    simpa using Nested.group ho hi hl .nil

theorem pending_eq (h : Opened k opened as) : pending [] as = some (opened.map Prod.snd) := by
  induction h with
  | nil hns => exact hns.pending_eq
  | cons hf ho hi ih =>
    rw [pending_append, ih, Option.bind_some, pending_opens ho, hi.pending_eq]
    rfl

theorem nested (h : Opened k [] as) : Nested as := by
  cases h with
  | nil hns => exact hns

/-- Brackets that are pending behind lexemes are open there. -/
theorem exists_of_pending (h : pending [] as = some bs) (k : Nat) :
    ∃ opened, Opened k opened as ∧ opened.map Prod.snd = bs := by
  induction as using List.reverseRecOn generalizing bs with
  | nil =>
    cases h
    exact ⟨[], .nil .nil, rfl⟩
  | append_singleton as l ih =>
    rw [pending_append] at h
    obtain ⟨cs, hcs, hl⟩ := Option.bind_eq_some_iff.1 h
    obtain ⟨opened, hopened, rfl⟩ := ih hcs
    cases ho : l.opens? with
    | some b =>
      rw [pending_opens ho] at hl
      cases hl
      exact ⟨_, hopened.opens ho, rfl⟩
    | none =>
      cases hc : l.closes? with
      | none =>
        rw [pending_plain ho hc] at hl
        cases hl
        exact ⟨opened, hopened.plain ho hc, rfl⟩
      | some b =>
        rcases opened with _ | ⟨⟨i, b'⟩, outer⟩
        · simp [pending, ho, hc] at hl
        · simp only [List.map_cons, pending, ho, hc] at hl
          split_ifs at hl with hb
          cases hl
          exact ⟨outer, hopened.closes (hb ▸ hc), rfl⟩

end Opened

/-! ## Runs of tokens -/

namespace Token

/-- A properly nested run at the front of some tokens; other tokens than brackets do not matter. -/
structure NestedRun (run ts : List Token) : Prop where
  nonempty : run ≠ []
  leads : run <+: ts
  nested : Nested (run.map (·.toLexeme))

/-- The bracket that `o` opens is the innermost one open behind `ts`, and `front` stands before
it. -/
def InnermostOpen (front : List Token) (o : Token) (b : Bracket) (ts : List Token) : Prop :=
  o.opens? = some b ∧ ∃ inner, Nested (inner.map (·.toLexeme)) ∧ ts = front ++ o :: inner

/-- Behind `ts`, `x` closes a bracket that is not the innermost one open. -/
def Mismatch (ts : List Token) (x : Token) : Prop :=
  ∃ front o b b', InnermostOpen front o b ts ∧ x.closes? = some b' ∧ b' ≠ b

/-- The first closing bracket among some tokens that does not match. -/
structure FirstMismatch (front : List Token) (x : Token) (ts : List Token) : Prop where
  leads : front ++ [x] <+: ts
  mismatch : Mismatch front x
  earliest : ∀ front' x', front' ++ [x'] <+: ts → Mismatch front' x' → front <+: front'

/-- Tokens that leave a bracket open wherever they are cut, so that no run of them is nested and
no bracket closes another. -/
def Unclosed (ts : List Token) : Prop :=
  ∀ run, run ≠ [] → run <+: ts → ∃ b bs, pending [] (run.map (·.toLexeme)) = some (b :: bs)

variable {k i : Nat} {b : Bracket} {opened : List (Nat × Bracket)} {as run ts front : List Token}
  {l x : Token}

theorem exists_innermostOpen (h : Opened k ((i, b) :: opened) (as.map (·.toLexeme))) :
    ∃ front o, InnermostOpen front o b as ∧ i = k + front.length := by
  generalize has : as.map (·.toLexeme) = ls at h
  cases h with
  | cons hf ho hi =>
    obtain ⟨front, tail, rfl, rfl, htail⟩ := List.map_eq_append_iff.1 has
    obtain ⟨o, inner, rfl, rfl, rfl⟩ := List.map_eq_cons_iff.1 htail
    exact ⟨front, o, ⟨ho, inner, hi, rfl⟩, by rw [List.length_map]⟩

namespace Unclosed

theorem nil : Unclosed [] := fun _ hne hrun => absurd (List.prefix_nil.1 hrun) hne

theorem concat (h : Unclosed as)
    (hl : Opened k ((i, b) :: opened) (as.map (·.toLexeme) ++ [l.toLexeme])) :
    Unclosed (as ++ [l]) := by
  intro run hne hrun
  rcases List.prefix_concat_iff.1 hrun with rfl | hrun
  · exact ⟨b, _, by rw [List.map_append]; exact hl.pending_eq⟩
  · exact h run hne hrun

theorem not_nestedRun (h : Unclosed as) : ¬ NestedRun run as := by
  intro hrun
  obtain ⟨b, bs, hp⟩ := h run hrun.nonempty hrun.leads
  rw [hrun.nested.pending_eq] at hp
  cases hp

end Unclosed

theorem Mismatch.pending_eq_none (h : Mismatch ts x) :
    pending [] ((ts ++ [x]).map (·.toLexeme)) = none := by
  obtain ⟨front, o, b, b', ⟨ho, inner, hi, rfl⟩, hx, hne⟩ := h
  rw [List.map_append, pending_append, List.map_append, List.map_cons, pending_append]
  cases pending [] (front.map (·.toLexeme)) with
  | none => rfl
  | some opened =>
    rw [Option.bind_some, pending_opens ho, hi.pending_eq]
    simp [pending, Lexeme.opens?_of_closes? hx, hx, hne]

/-- No lexemes with a bracket among them that does not match are nested. -/
theorem Mismatch.not_nested (h : Mismatch ts x) (more : List Token) :
    ¬ Nested ((ts ++ [x] ++ more).map (·.toLexeme)) := by
  intro hn
  have hp := nested_iff_pending.1 hn
  rw [List.map_append, pending_append, h.pending_eq_none] at hp
  cases hp

theorem Unclosed.not_mismatch (h : Unclosed as) (hx : front ++ [x] <+: as) :
    ¬ Mismatch front x := by
  intro hm
  obtain ⟨b, bs, hp⟩ := h _ (by simp) hx
  rw [hm.pending_eq_none] at hp
  cases hp

theorem Unclosed.firstMismatch (h : Unclosed front) (hm : Mismatch front x)
    (hx : front ++ [x] <+: ts) : FirstMismatch front x ts := by
  refine ⟨hx, hm, fun front' x' hx' hm' => ?_⟩
  have hfront := (List.prefix_append front [x]).trans hx
  rcases List.prefix_or_prefix_of_prefix hfront hx' with hle | hle
  · rcases List.prefix_concat_iff.1 hle with rfl | hle
    · exact absurd hm' (h.not_mismatch List.prefix_rfl)
    · exact hle
  · exact absurd hm' (h.not_mismatch hle)

theorem FirstMismatch.unique {front' : List Token} {x' : Token} (h : FirstMismatch front x ts)
    (h' : FirstMismatch front' x' ts) : front = front' ∧ x = x' := by
  have hle := h.earliest _ _ h'.leads h'.mismatch
  have hge := h'.earliest _ _ h.leads h.mismatch
  obtain rfl := hle.eq_of_length_le hge.length_le
  have hlen : (front ++ [x]).length = (front ++ [x']).length := by simp
  have hprefix := List.prefix_of_prefix_length_le h.leads h'.leads (Nat.le_of_eq hlen)
  have heq := hprefix.eq_of_length hlen
  exact ⟨rfl, by simpa using heq⟩

/-- No nested run goes past a bracket that does not match. -/
theorem NestedRun.of_mismatch (h : NestedRun run ts) (hm : Mismatch front x)
    (hx : front ++ [x] <+: ts) : NestedRun run front := by
  refine ⟨h.nonempty, ?_, h.nested⟩
  rcases List.prefix_or_prefix_of_prefix h.leads hx with hrun | ⟨more, rfl⟩
  · rcases List.prefix_concat_iff.1 hrun with rfl | hrun
    · exact absurd h.nested (by simpa using hm.not_nested [])
    · exact hrun
  · exact absurd h.nested (hm.not_nested more)

/-- A nested run whose last token closes the only bracket left open is the shortest one. -/
theorem Unclosed.leads_of_nestedRun (h : Unclosed as) (hts : as ++ [l] <+: ts)
    (hrun : NestedRun run ts) : as ++ [l] <+: run := by
  rcases List.prefix_or_prefix_of_prefix hts hrun.leads with hle | hle
  · exact hle
  · rcases List.prefix_concat_iff.1 hle with rfl | hle
    · exact List.prefix_rfl
    · exact absurd ⟨hrun.nonempty, hle, hrun.nested⟩ h.not_nestedRun

end Token

/-! ## Skipping a group -/

open Token

/-- The cursor between two runs of tokens. -/
def Cursor.between (before after : List Token) : Cursor :=
  ⟨before.length, before.getLast?.map (·.toLexeme), after.map (·.toLexeme)⟩

/-- How reading tokens ends that open a bracket and are numbered from `k`: behind the last bracket
that closes, at one that does not match, or at the end with one open. -/
inductive GroupOutcome (k : Nat) (ts : List Token) : Except Fault Cursor → Prop
  | closed {front rest : List Token} {last : Token} : ts = front ++ last :: rest →
      Unclosed front → Nested ((front ++ [last]).map (·.toLexeme)) →
      GroupOutcome k ts
        (.ok ⟨k + front.length + 1, some last.toLexeme, rest.map (·.toLexeme)⟩)
  | mismatched {front rest : List Token} {x : Token} : ts = front ++ x :: rest →
      Unclosed front → Mismatch front x →
      GroupOutcome k ts (.error ⟨.unexpected x.text, k + front.length⟩)
  | unclosed {front : List Token} {o : Token} {b : Bracket} : Unclosed ts →
      InnermostOpen front o b ts →
      GroupOutcome k ts (.error ⟨.unbalanced o.text, k + front.length⟩)

section Outcome

variable {k i : Nat} {b : Bracket} {opened : List (Nat × Bracket)} {as before ts : List Token}
  {t : Token}

theorem closeGroups_nil (i : Nat) (p : Option Lexeme) (ls : List Lexeme) :
    closeGroups [] i p ls = .ok ⟨i, p, ls⟩ := by
  cases ls <;> rfl

/-- Reading on, `as` having been read with a bracket open. -/
theorem closeGroups_outcome (ls : List Token) (p : Option Lexeme)
    (hop : Opened k ((i, b) :: opened) (as.map (·.toLexeme))) (hun : Unclosed as) :
    GroupOutcome k (as ++ ls)
      (closeGroups ((i, b) :: opened) (k + as.length) p (ls.map (·.toLexeme))) := by
  induction ls generalizing as i b opened p with
  | nil =>
    obtain ⟨front, o, ho, rfl⟩ := exists_innermostOpen hop
    rw [List.append_nil, List.map_nil, closeGroups, ← (Lexeme.opens?_eq_some.1 ho.1).2]
    exact .unclosed hun ho
  | cons l ls ih =>
    have hread {i' : Nat} {b' : Bracket} {opened' : List (Nat × Bracket)}
        (h : Opened k ((i', b') :: opened') (as.map (·.toLexeme) ++ [l.toLexeme])) :=
      ih (some l.toLexeme) (by rwa [List.map_append]) (hun.concat h)
    simp only [List.append_assoc, List.cons_append, List.nil_append, List.length_append,
      List.length_cons, List.length_nil, Nat.zero_add] at hread
    rw [List.map_cons, closeGroups]
    cases ho : l.opens? with
    | some inner =>
      have hopens := hop.opens ho
      rw [List.length_map] at hopens
      exact hread hopens
    | none =>
      cases hc : l.closes? with
      | none => exact hread (hop.plain ho hc)
      | some closed =>
        dsimp only
        split_ifs with heq
        · subst heq
          have hclosed := hop.closes hc
          cases opened with
          | cons e outer => exact hread hclosed
          | nil =>
            rw [closeGroups_nil, Nat.add_assoc]
            exact .closed rfl hun (by simpa using hclosed.nested)
        · obtain ⟨front, o, ho, -⟩ := exists_innermostOpen hop
          exact .mismatched rfl hun ⟨front, o, b, closed, ho, hc, heq⟩

/-- Skipping a group that begins with the first of some tokens. -/
theorem groupOutcome_skipGroup (ht : ts.head? = some t) (hb : t.opens? = some b) :
    GroupOutcome before.length ts (skipGroup b (between before ts)) := by
  obtain ⟨ts, rfl⟩ := List.head?_eq_some_iff.1 ht
  have hop : Opened before.length [(before.length, b)] [t.toLexeme] := .single hb
  exact closeGroups_outcome ts (some t.toLexeme) hop (Unclosed.nil.concat hop)

/-- The landmark of a token is where the token stands. -/
theorem exists_landmark {k : Nat} (h : ts[k]? = some t) (o : Nat) (q : Position) (r : Text) :
    ∃ mark, (Tree.landmarks o q r ts)[k]? = some mark ∧ mark.start = t.start
      ∧ mark.stop = t.stop := by
  induction ts generalizing k o q r with
  | nil => cases h
  | cons u ts ih =>
    cases k with
    | zero =>
      cases h
      exact ⟨_, rfl, rfl, rfl⟩
    | succ k => exact ih h _ _ _

theorem stop_landmarkBefore {k : Nat} (h : ts[k]? = some t) (o : Nat) (q : Position)
    (source : Text) :
    (Tree.landmarkBefore source (Tree.landmarks o q source ts).toArray (k + 1)).stop = t.stop := by
  obtain ⟨mark, hmark, -, hstop⟩ := exists_landmark h o q source
  simp [Tree.landmarkBefore, hmark, hstop]

namespace GroupOutcome

variable {r : Except Fault Cursor} {front : List Token} {x : Token}

theorem exists_ok_iff (h : GroupOutcome k ts r) :
    (∃ c, r = .ok c) ↔ ∃ run, NestedRun run ts := by
  cases h with
  | @closed front rest last hts hun hn =>
    exact ⟨fun _ => ⟨_, ⟨by simp, ⟨rest, by simp [hts]⟩, hn⟩⟩, fun _ => ⟨_, rfl⟩⟩
  | @mismatched front rest x hts hun hm =>
    refine ⟨by rintro ⟨c, ⟨⟩⟩, fun ⟨run, hrun⟩ => ?_⟩
    exact absurd (hrun.of_mismatch hm ⟨rest, by simp [hts]⟩) hun.not_nestedRun
  | unclosed hun _ =>
    exact ⟨by rintro ⟨c, ⟨⟩⟩, fun ⟨run, hrun⟩ => absurd hrun hun.not_nestedRun⟩

theorem of_ok {c : Cursor} (h : GroupOutcome k ts (.ok c)) :
    ∃ front last rest, ts = front ++ last :: rest ∧ NestedRun (front ++ [last]) ts
      ∧ (∀ run, NestedRun run ts → front ++ [last] <+: run)
      ∧ c = ⟨k + front.length + 1, some last.toLexeme, rest.map (·.toLexeme)⟩ := by
  cases h with
  | @closed front rest last hts hun hn =>
    have hleads : front ++ [last] <+: ts := ⟨rest, by simp [hts]⟩
    exact ⟨front, last, rest, hts, ⟨by simp, hleads, hn⟩,
      fun _ hrun => hun.leads_of_nestedRun hleads hrun, rfl⟩

theorem of_firstMismatch (h : GroupOutcome k ts r) (hx : FirstMismatch front x ts)
    (hnone : ∀ run, ¬ NestedRun run front) :
    r = .error ⟨.unexpected x.text, k + front.length⟩ := by
  cases h with
  | @closed front' rest last hts hun hn =>
    have hrun : NestedRun (front' ++ [last]) ts := ⟨by simp, ⟨rest, by simp [hts]⟩, hn⟩
    exact absurd (hrun.of_mismatch hx.mismatch hx.leads) (hnone _)
  | @mismatched front' rest x' hts hun hm =>
    have hleads : front' ++ [x'] <+: ts := ⟨rest, by simp [hts]⟩
    obtain ⟨rfl, rfl⟩ := hx.unique (hun.firstMismatch hm hleads)
    rfl
  | unclosed hun _ => exact absurd hx.mismatch (hun.not_mismatch hx.leads)

theorem of_none (h : GroupOutcome k ts r) (hrun : ∀ run, ¬ NestedRun run ts)
    (hfirst : ∀ front x, ¬ FirstMismatch front x ts) :
    ∃ front o b, InnermostOpen front o b ts
      ∧ r = .error ⟨.unbalanced o.text, k + front.length⟩ := by
  cases h with
  | @closed front rest last hts hun hn =>
    exact absurd ⟨by simp, ⟨rest, by simp [hts]⟩, hn⟩ (hrun (front ++ [last]))
  | @mismatched front rest x hts hun hm =>
    have hleads : front ++ [x] <+: ts := ⟨rest, by simp [hts]⟩
    exact absurd (hun.firstMismatch hm hleads) (hfirst front x)
  | unclosed _ ho => exact ⟨_, _, _, ho, rfl⟩

end GroupOutcome

/-- From an opening bracket, skipping a group succeeds if some run of tokens is nested; it then goes
behind the last token of the shortest one. If not, it fails at the first bracket that closes another
than the innermost one, and at the innermost one if there is none. -/
theorem skipGroup_outcome (ht : ts.head? = some t) (hb : t.opens? = some b) :
    ((∃ c, skipGroup b (between before ts) = .ok c) ↔ ∃ run, NestedRun run ts)
    ∧ (∀ c, skipGroup b (between before ts) = .ok c → ∃ front last rest, ts = front ++ last :: rest
      ∧ NestedRun (front ++ [last]) ts ∧ (∀ run, NestedRun run ts → front ++ [last] <+: run)
      ∧ c = between (before ++ (front ++ [last])) rest
      ∧ ∀ o q source, (Tree.landmarkBefore source
          (Tree.landmarks o q source (before ++ ts)).toArray c.index).stop = last.stop)
    ∧ (∀ front x, FirstMismatch front x ts → (∀ run, ¬ NestedRun run front) →
      skipGroup b (between before ts) = .error ⟨.unexpected x.text, (before ++ front).length⟩)
    ∧ ((∀ run, ¬ NestedRun run ts) → (∀ front x, ¬ FirstMismatch front x ts) →
      ∃ front o b', InnermostOpen front o b' ts ∧ skipGroup b (between before ts)
        = .error ⟨.unbalanced o.text, (before ++ front).length⟩) := by
  have hout : GroupOutcome before.length ts (skipGroup b (between before ts)) :=
    groupOutcome_skipGroup ht hb
  simp only [List.length_append]
  refine ⟨hout.exists_ok_iff, fun c hc => ?_, fun front x => hout.of_firstMismatch, hout.of_none⟩
  rw [hc] at hout
  obtain ⟨front, last, rest, rfl, hrun, hleast, rfl⟩ := hout.of_ok
  refine ⟨front, last, rest, rfl, hrun, hleast, ?_, fun o q source => ?_⟩
  · simp [between, Nat.add_assoc]
  · refine stop_landmarkBefore ?_ o q source
    rw [← List.append_assoc, ← List.length_append,
      List.getElem?_append_right (Nat.le_refl _), Nat.sub_self]
    rfl

theorem skipGroup_outcome_brackets :
    let op (c : Char) (i : Nat) : Token := ⟨⟨.op, [c]⟩, i⟩
    let before : List Token := [⟨⟨.ident, ['f']⟩, 0⟩]
    ((op '(' 1).opens? = some .paren ∧ (op '[' 1).opens? = some .square)
    ∧ (∃ c, skipGroup .paren (between before [op '(' 1, op '[' 2, op ']' 3, op ')' 4, op ')' 5])
      = .ok c)
    ∧ skipGroup .square (between before [op '[' 1, op '(' 2, op ']' 3, op ')' 4])
      = .error ⟨.unexpected [']'], 3⟩
    ∧ ∃ front o b', InnermostOpen front o b' [op '(' 1, op '[' 2, op ',' 3]
      ∧ skipGroup .paren (between before [op '(' 1, op '[' 2, op ',' 3])
        = .error ⟨.unbalanced o.text, (before ++ front).length⟩ := by
  intro op before
  have hsquare : Unclosed [op '[' 1, op '(' 2] := by
    have h : Opened 0 [(0, .square)] [(op '[' 1).toLexeme] := .single rfl
    exact (Unclosed.nil.concat h).concat (h.opens rfl)
  have hparen : Unclosed [op '(' 1, op '[' 2, op ',' 3] := by
    have h : Opened 0 [(0, .paren)] [(op '(' 1).toLexeme] := .single rfl
    have h' := h.opens (l := (op '[' 2).toLexeme) rfl
    exact ((Unclosed.nil.concat h).concat h').concat (h'.plain rfl rfl)
  refine ⟨⟨rfl, rfl⟩, (skipGroup_outcome rfl rfl).1.2
    ⟨[op '(' 1, op '[' 2, op ']' 3, op ')' 4], by simp, ⟨[op ')' 5], rfl⟩, by decide⟩, ?_, ?_⟩
  · have hx : Mismatch [op '[' 1, op '(' 2] (op ']' 3) :=
      ⟨[op '[' 1], op '(' 2, .paren, .square, ⟨rfl, [], .nil, rfl⟩, rfl, by decide⟩
    exact (skipGroup_outcome rfl rfl).2.2.1 _ _ (hsquare.firstMismatch hx ⟨[op ')' 4], rfl⟩)
      fun run => hsquare.not_nestedRun
  · exact (skipGroup_outcome rfl rfl).2.2.2 (fun run => hparen.not_nestedRun)
      fun front x hx => hparen.not_mismatch hx.leads hx.mismatch

end Outcome

end BalMediation
