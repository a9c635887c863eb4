import BalMediation.Proofs.Coverage
import BalMediation.Proofs.Groups
import BalMediation.Proofs.Spacing
import BalMediation.Proofs.Tiling
import Mathlib.Data.List.Forall2

/-!
# Parameters

The parameters of a signature are cut at the commas that stand between no two brackets that match
(`parameters_of_parse`).
-/

namespace BalMediation

open Lexer Branch Cursor Phrase

/-! ## Commas -/

/-- Whether two brackets match, with what stands between them. -/
def Partners (o : Lexeme) (inner : List Lexeme) (c : Lexeme) : Prop :=
  ∃ b, o.opens? = some b ∧ Nested inner ∧ c.closes? = some b

/-- Whether lexeme number `k` is a comma that stands between no two brackets that match. -/
def TopComma (ls : List Lexeme) (k : Nat) : Prop :=
  (∃ l, ls[k]? = some l ∧ l.isOp [','] = true)
  ∧ ∀ front o inner c back, ls = front ++ o :: (inner ++ c :: back) → Partners o inner c →
    ¬ (front.length < k ∧ k < front.length + 1 + inner.length)

/-- A run of numbers from `lo` to before `hi` that holds no mark and cannot be longer. It goes from
`r.1` to before `r.2`. -/
structure LongestRun (P : Nat → Prop) (lo hi : Nat) (r : Nat × Nat) : Prop where
  nonempty : r.1 < r.2
  ge : lo ≤ r.1
  le : r.2 ≤ hi
  between : ∀ k, r.1 ≤ k → k < r.2 → ¬ P k
  first : r.1 = lo ∨ ∃ k, r.1 = k + 1 ∧ lo ≤ k ∧ P k
  last : r.2 = hi ∨ P r.2

section Depth

variable {as ls rest : List Lexeme} {l : Lexeme} {bs : List Bracket}

/-- The number of open brackets is the depth. -/
theorem foldl_depthAfter {st : List Bracket} (h : pending st as = some bs) :
    as.foldl depthAfter st.length = bs.length := by
  induction as generalizing st with
  | nil =>
    cases h
    rfl
  | cons a as ih =>
    rw [List.foldl_cons, depthAfter]
    cases ho : a.opens? with
    | some b =>
      rw [pending_opens ho] at h
      exact ih h
    | none =>
      cases hc : a.closes? with
      | none =>
        rw [pending_plain ho hc] at h
        exact ih h
      | some b =>
        cases st with
        | nil => simp [pending, ho, hc] at h
        | cons b' outer =>
          simp only [pending, ho, hc] at h
          split_ifs at h
          exact ih h

/-- What is open beneath the brackets of a run stays open. -/
theorem pending_beneath {st : List Bracket} (more : List Bracket) (h : pending st ls = some bs) :
    pending (st ++ more) ls = some (bs ++ more) := by
  induction ls generalizing st with
  | nil =>
    cases h
    rfl
  | cons a ls ih =>
    cases ho : a.opens? with
    | some b =>
      rw [pending_opens ho] at h ⊢
      exact ih h
    | none =>
      cases hc : a.closes? with
      | none =>
        rw [pending_plain ho hc] at h ⊢
        exact ih h
      | some b =>
        cases st with
        | nil => simp [pending, ho, hc] at h
        | cons b' outer =>
          simp only [pending, ho, hc, List.cons_append] at h ⊢
          split_ifs at h ⊢
          exact ih h

theorem Nested.exists_pending (h : Nested (as ++ rest)) :
    ∃ st, pending [] as = some st ∧ pending st rest = some [] := by
  have hp := nested_iff_pending.1 h
  rw [pending_append] at hp
  exact Option.bind_eq_some_iff.1 hp

/-- Among nested lexemes, one that is no bracket stands between two that match unless the lexemes in
front of it are nested by themselves. -/
theorem exists_partners (h : Nested (as ++ l :: rest)) (ho : l.opens? = none)
    (hc : l.closes? = none) (has : ¬ Nested as) :
    ∃ front o x y c back, as = front ++ o :: x ∧ rest = y ++ c :: back
      ∧ Partners o (x ++ l :: y) c := by
  obtain ⟨bs, hbs, hrest⟩ := h.exists_pending
  obtain ⟨opened, hopened, rfl⟩ := Opened.exists_of_pending hbs 0
  rw [pending_plain ho hc] at hrest
  cases hopened with
  | nil hns => exact absurd hns has
  | cons hf hob hi =>
    obtain ⟨ns, tail, rfl, hcloses, -⟩ := exists_of_pending hrest
    rcases hcloses with _ | ⟨hy, hcb, -⟩
    exact ⟨_, _, _, _, _, _, rfl, by rw [List.append_assoc, List.cons_append], _, hob,
      hi.append (.plain ho hc hy), hcb⟩

/-- The partner of a bracket in a nested run is in that run. -/
theorem Nested.not_partners {front x y : List Lexeme} {o c : Lexeme}
    (h : Nested (front ++ o :: x)) : ¬ Partners o (x ++ y) c := by
  rintro ⟨b, ho, hinner, -⟩
  obtain ⟨st, -, hx⟩ := h.exists_pending
  rw [pending_opens ho] at hx
  obtain ⟨bs, hbs, -⟩ := hinner.exists_pending
  have hbeneath := pending_beneath (b :: st) hbs
  rw [List.nil_append, hx] at hbeneath
  simp at hbeneath

theorem plain_of_comma (h : l.isOp [','] = true) : l.opens? = none ∧ l.closes? = none :=
  plain_of_isOp h fun b => by cases b <;> decide

/-- In a nested run the commas that stand between no brackets are those at depth zero. -/
theorem topComma_iff (h : Nested (as ++ l :: rest)) : TopComma (as ++ l :: rest) as.length
    ↔ as.foldl depthAfter 0 = 0 ∧ l.isOp [','] = true := by
  have hget : (as ++ l :: rest)[as.length]? = some l := by simp
  constructor
  · rintro ⟨⟨l', hl', hcomma⟩, hout⟩
    obtain rfl : l = l' := Option.some.inj (hget.symm.trans hl')
    obtain ⟨ho, hc⟩ := plain_of_comma hcomma
    refine ⟨?_, hcomma⟩
    by_contra hdepth
    have has : ¬ Nested as := fun has => hdepth (foldl_depthAfter (nested_iff_pending.1 has))
    obtain ⟨front, o, x, y, c, back, rfl, rfl, hpartners⟩ := exists_partners h ho hc has
    refine hout front o (x ++ l :: y) c back (by simp) hpartners ?_
    simp only [List.length_append, List.length_cons]
    omega
  · rintro ⟨hdepth, hcomma⟩
    refine ⟨⟨l, hget, hcomma⟩, fun front o inner c back heq hpartners ⟨hlt, hlt'⟩ => ?_⟩
    obtain ⟨bs, hbs, -⟩ := h.exists_pending
    have hlen := foldl_depthAfter hbs
    rw [List.length_nil, hdepth] at hlen
    obtain rfl := List.eq_nil_of_length_eq_zero hlen.symm
    have has := nested_iff_pending.2 hbs
    -- the opening bracket stands in `as`, and `l` and the closing one behind it
    rcases List.append_eq_append_iff.1 heq with ⟨u, rfl, -⟩ | ⟨u, rfl, hu⟩
    · simp only [List.length_append] at hlt
      omega
    · cases u with
      | nil => simp at hlt
      | cons o' x =>
        obtain ⟨rfl, hx⟩ := List.cons.inj hu
        rcases List.append_eq_append_iff.1 hx with ⟨v, rfl, -⟩ | ⟨v, rfl, -⟩
        · simp only [List.length_append, List.length_cons] at hlt'
          omega
        · exact has.not_partners hpartners

end Depth

/-! ## Runs between commas -/

section Runs

variable {P : Nat → Prop} {lo m hi : Nat} {r : Nat × Nat}

namespace LongestRun

theorem fst_eq (h : LongestRun P lo hi r) (hnone : ∀ k, lo ≤ k → k < r.1 → ¬ P k) :
    r.1 = lo := by
  rcases h.first with hfirst | ⟨k, hk, hge, hmark⟩
  · exact hfirst
  · exact absurd hmark (hnone k hge (by omega))

theorem snd_eq (h : LongestRun P lo hi r) (hle : r.2 ≤ m) (hm : m ≤ hi)
    (hnone : ∀ k, r.2 ≤ k → k < m → ¬ P k) : r.2 = m := by
  by_contra hne
  rcases h.last with hlast | hmark
  · omega
  · exact hnone r.2 (Nat.le_refl _) (by omega) hmark

end LongestRun

theorem longestRun_of_forall (hlt : lo < hi) (h : ∀ k, lo ≤ k → k < hi → ¬ P k) :
    LongestRun P lo hi r ↔ r = (lo, hi) := by
  constructor
  · intro hr
    have hne := hr.nonempty
    have hge := hr.ge
    have hle := hr.le
    exact Prod.ext (hr.fst_eq fun k hk hkr => h k hk (by omega))
      (hr.snd_eq hle (Nat.le_refl _) fun k hk hkr => h k (by omega) hkr)
  · rintro rfl
    exact ⟨hlt, Nat.le_refl _, Nat.le_refl _, h, .inl rfl, .inl rfl⟩

/-- The runs on both sides of the first mark. -/
theorem longestRun_of_mark (hlo : lo ≤ m) (hhi : m < hi) (hm : P m)
    (h : ∀ k, lo ≤ k → k < m → ¬ P k) :
    LongestRun P lo hi r ↔ (lo < m ∧ r = (lo, m)) ∨ LongestRun P (m + 1) hi r := by
  constructor
  · intro hr
    have hne := hr.nonempty
    have hge := hr.ge
    by_cases hlt : m < r.1
    · refine .inr ⟨hne, hlt, hr.le, hr.between, ?_, hr.last⟩
      rcases hr.first with hfirst | ⟨k, hk, -, hmark⟩
      · omega
      · rcases Nat.eq_or_lt_of_le (show m ≤ k by omega) with rfl | hmk
        · exact .inl hk
        · exact .inr ⟨k, hk, hmk, hmark⟩
    · have hle : r.2 ≤ m := by
        by_contra hle
        exact hr.between m (by omega) (by omega) hm
      have hfst := hr.fst_eq fun k hk hkr => h k hk (by omega)
      have hsnd := hr.snd_eq hle (Nat.le_of_lt hhi) fun k hk hkr => h k (by omega) hkr
      exact .inl ⟨by omega, Prod.ext hfst hsnd⟩
  · rintro (⟨hlt, rfl⟩ | ⟨hne, hge, hle, hbetween, hfirst, hlast⟩)
    · exact ⟨hlt, Nat.le_refl _, Nat.le_of_lt hhi, h, .inl rfl, .inr hm⟩
    · refine ⟨hne, by omega, hle, hbetween, .inr ?_, hlast⟩
      rcases hfirst with ha | ⟨k, ha, hk, hmark⟩
      · exact ⟨m, ha, hlo, hm⟩
      · exact ⟨k, ha, by omega, hmark⟩

/-- Whether `P` holds of the numbers of the commas at depth zero, if the first lexeme has the number
`index` and stands at a depth. -/
def CutsAt (P : Nat → Prop) (index depth : Nat) (ls : List Lexeme) : Prop :=
  ∀ as l rest, ls = as ++ l :: rest →
    (P (index + as.length) ↔ as.foldl depthAfter depth = 0 ∧ l.isOp [','] = true)

section CommaRuns

variable {index depth : Nat} {l : Lexeme} {ls : List Lexeme} {first : Option Nat}

theorem CutsAt.head (h : CutsAt P index depth (l :: ls)) :
    P index ↔ depth = 0 ∧ l.isOp [','] = true :=
  h [] l ls rfl

theorem CutsAt.tail (h : CutsAt P index depth (l :: ls)) :
    CutsAt P (index + 1) (depthAfter depth l) ls := by
  rintro as l' rest rfl
  rw [Nat.add_assoc, Nat.add_comm 1]
  exact h (l :: as) l' rest rfl

theorem depthAfter_of_isComma (h : l.isOp [','] = true) (depth : Nat) :
    depthAfter depth l = depth := by
  obtain ⟨ho, hc⟩ := plain_of_comma h
  simp [depthAfter, ho, hc]

theorem commaRuns_comma (h : l.isOp [','] = true) : commaRuns index 0 first (l :: ls)
    = first.toList.map (·, index) ++ commaRuns (index + 1) 0 none ls := by
  rw [commaRuns, if_pos (by simp [h])]

theorem commaRuns_other (h : ¬ (depth = 0 ∧ l.isOp [','] = true)) :
    commaRuns index depth first (l :: ls)
      = commaRuns (index + 1) (depthAfter depth l) (some (first.getD index)) ls := by
  rw [commaRuns, if_neg (by simpa using h)]
  rfl

/-- Whether the run at the front, if there is one, has begun and holds no mark. -/
def Begun (P : Nat → Prop) (index : Nat) (first : Option Nat) : Prop :=
  ∀ f ∈ first, f < index ∧ ∀ k, f ≤ k → k < index → ¬ P k

theorem Begun.start (h : Begun P index first) : first.getD index ≤ index
    ∧ ∀ k, first.getD index ≤ k → k < index → ¬ P k := by
  cases first with
  | none => exact ⟨Nat.le_refl _, fun k hle hlt => absurd hle (Nat.not_le.2 hlt)⟩
  | some f => exact ⟨Nat.le_of_lt (h f rfl).1, (h f rfl).2⟩

theorem Begun.next (h : Begun P index first) (hindex : ¬ P index) :
    Begun P (index + 1) (some (first.getD index)) := by
  obtain ⟨hle, hnone⟩ := h.start
  rintro f ⟨⟩
  refine ⟨Nat.lt_succ_of_le hle, fun k hk hlt => ?_⟩
  rcases Nat.eq_or_lt_of_le (Nat.le_of_lt_succ hlt) with rfl | hlt
  · exact hindex
  · exact hnone k hk hlt

/-- The runs that are found are the longest ones between marks. -/
theorem mem_commaRuns (hP : CutsAt P index depth ls) (hfirst : Begun P index first) :
    r ∈ commaRuns index depth first ls
      ↔ LongestRun P (first.getD index) (index + ls.length) r := by
  induction ls generalizing index depth first with
  | nil =>
    rw [commaRuns]
    cases first with
    | none =>
      refine ⟨fun h => by simp at h, fun h => ?_⟩
      have := h.nonempty
      have := h.ge
      have := h.le
      simp only [Option.getD_none, List.length_nil] at *
      omega
    | some f =>
      obtain ⟨hlt, hnone⟩ := hfirst f rfl
      rw [Option.getD_some, List.length_nil, Nat.add_zero, longestRun_of_forall hlt hnone]
      simp
  | cons l ls ih =>
    have hhi : index + (l :: ls).length = index + 1 + ls.length := by
      rw [List.length_cons]
      omega
    rw [hhi]
    by_cases hcomma : depth = 0 ∧ l.isOp [','] = true
    · have hmark := hP.head.2 hcomma
      obtain ⟨rfl, hl⟩ := hcomma
      have htail := hP.tail
      rw [depthAfter_of_isComma hl] at htail
      obtain ⟨hstart, hnone⟩ := hfirst.start
      rw [commaRuns_comma hl, List.mem_append, ih htail (by simp [Begun]), Option.getD_none,
        longestRun_of_mark hstart (by omega) hmark hnone]
      refine or_congr_left ?_
      cases first with
      | none => simp
      | some f => simpa [eq_comm] using fun _ : r = (f, index) => (hfirst f rfl).1
    · rw [commaRuns_other hcomma]
      exact ih hP.tail (hfirst.next fun hmark => hcomma (hP.head.1 hmark))

/-- The runs are found in order, with a mark behind each. -/
theorem pairwise_commaRuns (hP : CutsAt P index depth ls) :
    (commaRuns index depth first ls).Pairwise fun r s => r.2 < s.1 := by
  induction ls generalizing index depth first with
  | nil => cases first <;> simp [commaRuns]
  | cons l ls ih =>
    by_cases hcomma : depth = 0 ∧ l.isOp [','] = true
    · obtain ⟨rfl, hl⟩ := hcomma
      have htail := hP.tail
      rw [depthAfter_of_isComma hl] at htail
      rw [commaRuns_comma hl, List.pairwise_append]
      refine ⟨by cases first <;> simp, ih htail, fun r hr s hs => ?_⟩
      obtain ⟨f, -, rfl⟩ := List.mem_map.1 hr
      exact ((mem_commaRuns htail (by simp [Begun])).1 hs).ge
    · rw [commaRuns_other hcomma]
      exact ih hP.tail

/-- Every number is a mark or in a run. -/
theorem exists_mem_commaRuns (hP : CutsAt P index depth ls) {k : Nat}
    (hk : first.getD index ≤ k) (hk' : k < index + ls.length) :
    P k ∨ ∃ r ∈ commaRuns index depth first ls, r.1 ≤ k ∧ k < r.2 := by
  induction ls generalizing index depth first with
  | nil =>
    cases first with
    | none =>
      simp only [Option.getD_none, List.length_nil] at hk hk'
      omega
    | some f => exact .inr ⟨(f, index), by simp [commaRuns], hk, hk'⟩
  | cons l ls ih =>
    rw [List.length_cons] at hk'
    by_cases hcomma : depth = 0 ∧ l.isOp [','] = true
    · have hmark := hP.head.2 hcomma
      obtain ⟨rfl, hl⟩ := hcomma
      have htail := hP.tail
      rw [depthAfter_of_isComma hl] at htail
      simp only [commaRuns_comma hl, List.mem_append]
      rcases Nat.lt_trichotomy k index with hlt | rfl | hlt
      · cases first with
        | none =>
          rw [Option.getD_none] at hk
          omega
        | some f => exact .inr ⟨(f, index), .inl (by simp), hk, hlt⟩
      · exact .inl hmark
      · rcases @ih _ _ none htail hlt (by omega) with hmark | ⟨r, hr, hkr⟩
        · exact .inl hmark
        · exact .inr ⟨r, .inr hr, hkr⟩
    · rw [commaRuns_other hcomma]
      exact ih hP.tail hk (by omega)

theorem commaRuns_add (n index depth : Nat) (first : Option Nat) (ls : List Lexeme) :
    commaRuns (n + index) depth (first.map (n + ·)) ls
      = (commaRuns index depth first ls).map fun r => (n + r.1, n + r.2) := by
  induction ls generalizing index depth first with
  | nil => cases first <;> simp [commaRuns]
  | cons l ls ih =>
    by_cases hcomma : depth = 0 ∧ l.isOp [','] = true
    · obtain ⟨rfl, hl⟩ := hcomma
      rw [commaRuns_comma hl, commaRuns_comma hl, List.map_append, ← ih (index + 1) 0 none]
      cases first <;> rfl
    · rw [commaRuns_other hcomma, commaRuns_other hcomma, ← ih]
      cases first <;> rfl

end CommaRuns

end Runs

theorem cutsAt_topComma {ls : List Lexeme} (h : Nested ls) : CutsAt (TopComma ls) 0 0 ls := by
  rintro as l rest rfl
  rw [Nat.zero_add]
  exact topComma_iff h

/-! ## Signatures among branches -/

/-- Whether a node over these branches has what a signature has, if it is one. -/
def Signed (kind : Kind) (_ : Label) (bs : List Branch) : Prop :=
  kind = .functionSignature → ∃ s : Signature, s.params.Valid .paren
    ∧ bs = Signature.paramsBranches s.params ++ s.returns.toList.map Returns.branch

namespace Phrase

theorem holdsThroughout_signed : HoldsThroughout Signed where
  leaf hk _ heq := absurd (heq ▸ hk) (by decide)
  run hk _ heq := absurd (heq ▸ hk) (by decide)
  inner hk _ _ heq := absurd (heq ▸ hk) (by decide)
  member hk _ _ heq := absurd (heq ▸ hk) (by decide)
  signature {s _} h _ := ⟨s, h.params, rfl⟩
  declaration _ heq := absurd heq (by decide)
  service _ _ _ _ heq := absurd heq (by decide)

/-- Every signature that a member of a module leaves has what a signature has. -/
theorem ModuleMember.all_signed {p : Option Lexeme} {m : ModuleMember} {rest : List Lexeme}
    (h : moduleGrammar.Valid p m rest) : All Signed (moduleGrammar.branch m) :=
  ModuleMember.all holdsThroughout_signed h

end Phrase

/-! ## Nodes over runs of tokens -/

/-- Whether a node spans the tokens of a run, from the start of the first to the end of the last. -/
def Node.Spans (n : Node) (ts : List Token) (r : Nat × Nat) : Prop :=
  (∃ t, ts[r.1]? = some t ∧ n.start = t.start) ∧ ∃ t, ts[r.2 - 1]? = some t ∧ n.stop = t.stop

/-- Whether nodes are the parameters that some tokens are cut into: in order, the longest runs
without a top comma. Each token is such a comma, apart from all nodes, or lies in one of them. -/
structure Parameters (ts : List Token) (ns : List Node) : Prop where
  runs : ∃ runs : List (Nat × Nat),
    (∀ r, r ∈ runs ↔ LongestRun (TopComma (ts.map (·.toLexeme))) 0 ts.length r)
    ∧ runs.Pairwise (fun r s => r.2 < s.1) ∧ List.Forall₂ (·.Spans ts ·) ns runs
  token : ∀ k t, ts[k]? = some t →
    TopComma (ts.map (·.toLexeme)) k ∧ (∀ n ∈ ns, t.Apart n)
    ∨ ¬ TopComma (ts.map (·.toLexeme)) k
      ∧ ∃ as n bs, ns = as ++ n :: bs ∧ t.liesIn n = true ∧ ∀ m ∈ as ++ bs, t.Apart m

section Spans

variable {ts : List Token} {n : Node} {r : Nat × Nat} {t u : Token} {k l : Nat}

theorem Token.stop_le_start (hts : ts.Pairwise fun s t => s.start < t.start ∧ s.stop ≤ t.start)
    (ht : ts[k]? = some t) (hu : ts[l]? = some u) (hlt : k < l) : t.stop ≤ u.start := by
  obtain ⟨hk, rfl⟩ := List.getElem?_eq_some_iff.1 ht
  obtain ⟨hl, rfl⟩ := List.getElem?_eq_some_iff.1 hu
  exact (List.pairwise_iff_getElem.1 hts k l hk hl hlt).2

namespace Node.Spans

variable (hts : ts.Pairwise fun s t => s.start < t.start ∧ s.stop ≤ t.start) (h : n.Spans ts r)
  (ht : ts[k]? = some t)

include hts h ht

theorem stop_le (hk : k < r.1) : t.stop ≤ n.start := by
  obtain ⟨⟨u, hu, hstart⟩, -⟩ := h
  rw [hstart]
  exact Token.stop_le_start hts ht hu hk

theorem le_start (hk : r.2 ≤ k) (hr : r.1 < r.2) : n.stop ≤ t.start := by
  obtain ⟨-, u, hu, hstop⟩ := h
  rw [hstop]
  exact Token.stop_le_start hts hu ht (by omega)

theorem liesIn (hk : r.1 ≤ k) (hk' : k < r.2) : t.liesIn n = true := by
  obtain ⟨⟨u, hu, hstart⟩, v, hv, hstop⟩ := h
  have hlen : ∀ w : Token, w.start ≤ w.stop := fun w => Nat.le_add_right _ _
  have hle : n.start ≤ t.start := by
    rw [hstart]
    rcases Nat.eq_or_lt_of_le hk with rfl | hlt
    · exact Nat.le_of_eq (congrArg Token.start (Option.some.inj (hu.symm.trans ht)))
    · exact Nat.le_trans (hlen u) (Token.stop_le_start hts hu ht hlt)
  have hle' : t.stop ≤ n.stop := by
    rw [hstop]
    rcases Nat.eq_or_lt_of_le (Nat.le_sub_one_of_lt hk') with rfl | hlt
    · exact Nat.le_of_eq (congrArg Token.stop (Option.some.inj (ht.symm.trans hv)))
    · exact Nat.le_trans (Token.stop_le_start hts ht hv hlt) (hlen v)
  simp [Token.liesIn, hle, hle']

end Node.Spans

/-- Nodes that span the runs between the commas of nested tokens are their parameters. -/
theorem Parameters.of_spans (hts : ts.Pairwise fun s t => s.start < t.start ∧ s.stop ≤ t.start)
    (hn : Nested (ts.map (·.toLexeme))) {f : Nat × Nat → Node}
    (hf : ∀ r ∈ commaRuns 0 0 none (ts.map (·.toLexeme)), (f r).Spans ts r) :
    Parameters ts ((commaRuns 0 0 none (ts.map (·.toLexeme))).map f) := by
  have hcuts := cutsAt_topComma hn
  have hmem (r : Nat × Nat) : r ∈ commaRuns 0 0 none (ts.map (·.toLexeme))
      ↔ LongestRun (TopComma (ts.map (·.toLexeme))) 0 ts.length r := by
    rw [mem_commaRuns hcuts (by simp [Begun])]
    simp
  have hpairwise : (commaRuns 0 0 none (ts.map (·.toLexeme))).Pairwise fun r s => r.2 < s.1 :=
    pairwise_commaRuns hcuts
  have hcover : ∀ k < ts.length, TopComma (ts.map (·.toLexeme)) k
      ∨ ∃ r ∈ commaRuns 0 0 none (ts.map (·.toLexeme)), r.1 ≤ k ∧ k < r.2 :=
    fun k hk => exists_mem_commaRuns hcuts (Nat.zero_le k) (by simpa using hk)
  generalize commaRuns 0 0 none (ts.map (·.toLexeme)) = runs at hf hmem hpairwise hcover ⊢
  refine ⟨⟨runs, hmem, hpairwise, ?_⟩, fun k t ht => ?_⟩
  · rw [List.forall₂_map_left_iff, List.forall₂_same]
    exact hf
  · have hk : k < ts.length := (List.getElem?_eq_some_iff.1 ht).1
    by_cases hcomma : TopComma (ts.map (·.toLexeme)) k
    · refine .inl ⟨hcomma, fun n hn => ?_⟩
      obtain ⟨r, hr, rfl⟩ := List.mem_map.1 hn
      have hrun := (hmem r).1 hr
      rcases Nat.lt_or_ge k r.1 with hlt | hge
      · exact .inl ((hf r hr).stop_le hts ht hlt)
      · refine .inr ((hf r hr).le_start hts ht ?_ hrun.nonempty)
        by_contra hlt
        exact hrun.between k hge (Nat.lt_of_not_le hlt) hcomma
    · refine .inr ⟨hcomma, ?_⟩
      obtain ⟨r, hr, hge, hlt⟩ := (hcover k hk).resolve_left hcomma
      have hin := (hf r hr).liesIn hts ht hge hlt
      obtain ⟨front, back, rfl⟩ := List.append_of_mem hr
      refine ⟨front.map f, f r, back.map f, by simp, hin, fun m hm => ?_⟩
      rw [← List.map_append] at hm
      obtain ⟨q, hq, rfl⟩ := List.mem_map.1 hm
      rw [List.pairwise_append, List.pairwise_cons] at hpairwise
      obtain ⟨-, ⟨hback, -⟩, hfront⟩ := hpairwise
      rcases List.mem_append.1 hq with hq | hq
      · have hqr := hfront q hq r List.mem_cons_self
        have hmem' : q ∈ front ++ r :: back := List.mem_append_left _ hq
        exact .inr ((hf q hmem').le_start hts ht (by omega) ((hmem q).1 hmem').nonempty)
      · have hrq := hback q hq
        have hmem' : q ∈ front ++ r :: back := List.mem_append_right _ (List.mem_cons_of_mem r hq)
        exact .inl ((hf q hmem').stop_le hts ht (by omega))

end Spans

/-! ## Signatures in the tree -/

namespace Tree

variable {ts : List Token} {t : Token} {k : Nat}

theorem start_landmark (h : ts[k]? = some t) (o : Nat) (q : Position) (source : Text) :
    (landmark source (landmarks o q source ts).toArray k).start = t.start := by
  obtain ⟨mark, hmark, hstart, -⟩ := exists_landmark h o q source
  simp [landmark, hmark, hstart]

theorem placeAll_eq_map (source : Text) (marks : Array Landmark) (shapes : List Shape) :
    placeAll source marks shapes = shapes.map (place source marks) := by
  induction shapes with
  | nil => rw [placeAll, List.map_nil]
  | cons s shapes ih => rw [placeAll, List.map_cons, ih]

/-- A node that is put over a run of tokens among others spans the run. -/
theorem spans_place {inside : List Token} {r : Nat × Nat} (before behind : List Token)
    (hr : r.1 < r.2) (hr' : r.2 ≤ inside.length) (o : Nat) (q : Position) (source : Text)
    (kind : Kind) :
    (place source (landmarks o q source (before ++ (inside ++ behind))).toArray
      (Shape.span kind (before.length + r.1) (before.length + r.2))).Spans inside r := by
  have hget : ∀ k < inside.length, ∃ t, inside[k]? = some t
      ∧ (before ++ (inside ++ behind))[before.length + k]? = some t := by
    intro k hk
    refine ⟨inside[k], List.getElem?_eq_getElem hk, ?_⟩
    rw [List.getElem?_append_right (Nat.le_add_right _ _), Nat.add_sub_cancel_left,
      List.getElem?_append_left hk, List.getElem?_eq_getElem hk]
  obtain ⟨t, ht, ht'⟩ := hget r.1 (by omega)
  obtain ⟨u, hu, hu'⟩ := hget (r.2 - 1) (by omega)
  have hstop := stop_landmarkBefore hu' o q source
  rw [show before.length + (r.2 - 1) + 1 = before.length + r.2 by omega] at hstop
  exact ⟨⟨t, ht, start_landmark ht' o q source⟩, u, hu, hstop⟩

end Tree

/-- The nodes of parentheses and of what is between them. -/
theorem nodesAll_paramsBranches (before next : Text) (g : Group) (back : List Branch) :
    ∃ n m : Node, nodesAll before next (Signature.paramsBranches g ++ back)
        = n :: (nodesAll (before ++ g.opening.text) g.closing.gap
            (parameterBranches 0 [] g.inside)
          ++ m :: nodesAll (before ++ spell g.words) next back)
      ∧ n.kind = .openParen ∧ n.start = before.length + g.opening.gap.length
      ∧ n.stop = before.length + g.opening.text.length
      ∧ m.kind = .closeParen
      ∧ m.start = before.length + (spell (g.opening :: g.inside)).length + g.closing.gap.length
      ∧ m.stop = before.length + (spell g.words).length := by
  refine ⟨nodeOver before (gapBefore g.closing.gap g.inside) .openParen .own [g.opening] [],
    nodeOver (before ++ spell (g.opening :: g.inside)) (gapBefore next (wordsAll back)) .closeParen
      .own [g.closing] [], ?_, rfl, ?_, ?_, rfl, ?_, ?_⟩
  · simp [Signature.paramsBranches, leaf, Group.words, Word.text]
  · simp [nodeOver]
  · simp [nodeOver, Word.text]
  · simp [nodeOver, Nat.add_assoc]
  · simp [nodeOver, Group.words]

/-- The nodes of parameters stand over the runs between commas. -/
theorem nodesAll_parameterBranches (before inside : List Word) (next : Text) :
    nodesAll (spell before) next (parameterBranches 0 [] inside)
      = (commaRuns 0 0 none (lexemes inside)).map fun r =>
        Tree.place (spell (before ++ inside) ++ next) (Tree.wordMarks (before ++ inside) next)
          (Shape.span .parameter (before.length + r.1) (before.length + r.2)) := by
  have hwords : before ++ inside
      = before ++ wordsAll (parameterBranches 0 [] inside) ++ [] := by simp
  have hplace := Tree.placeAll_shapesAll next (parameterBranches 0 [] inside) hwords
  have hruns := commaRuns_add before.length 0 0 none (lexemes inside)
  rw [Option.map_none] at hruns
  rw [gapBefore_nil] at hplace
  rw [← hplace, shapesAll_parameterBranches, List.length_nil, List.isEmpty_nil, if_pos rfl, hruns,
    List.map_map, Tree.placeAll_eq_map, List.map_map]
  rfl

/-- The nodes that words between commas leave are the parameters of their tokens. -/
theorem parameters_nodesAll {inside : List Word} (hn : Nested (lexemes inside))
    (hws : ∀ w ∈ inside, w.lexeme.text ≠ []) (before : List Word) (next : Text) :
    Parameters (tokensFrom (spell before).length inside)
      (nodesAll (spell before) next (parameterBranches 0 [] inside)) := by
  have hlex := Tree.tokensFrom_toLexeme (spell before).length inside
  rw [← hlex] at hn
  rw [nodesAll_parameterBranches, ← hlex]
  refine Parameters.of_spans (pairwise_tokensFrom hws _) hn fun r hr => ?_
  have hrun := (mem_commaRuns (cutsAt_topComma hn) (by simp [Begun])).1 hr
  have hle := hrun.le
  rw [List.length_map, Nat.zero_add] at hle
  have hspans := Tree.spans_place (tokensFrom 0 before) [] hrun.nonempty hle 0 ⟨0, 0⟩
    (spell (before ++ inside) ++ next) .parameter
  rw [Tree.length_tokensFrom, List.append_nil] at hspans
  rw [Tree.wordMarks, tokensFrom_append, Nat.zero_add]
  exact hspans

/-- Whether a signature has its parentheses and parameters from tokens: the parentheses are two that
match, and the parameters are what stands between them, cut at the top commas. -/
def Node.CutFrom (s : Node) (tokens : List Token) : Prop :=
  ∃ before o inside c behind, tokens = before ++ o :: (inside ++ c :: behind)
    ∧ o.isOp ['('] = true ∧ c.isOp [')'] = true
    ∧ Partners o.toLexeme (inside.map (·.toLexeme)) c.toLexeme
    ∧ (∃ n, s.childrenOf [.openParen] = [n] ∧ n.start = o.start ∧ n.stop = o.stop)
    ∧ (∃ n, s.childrenOf [.closeParen] = [n] ∧ n.start = c.start ∧ n.stop = c.stop)
    ∧ Parameters inside (s.childrenOf [.parameter])

/-- The tokens of words with parentheses among them. -/
theorem tokensFrom_group (pre : List Word) (g : Group) (rest : List Word) :
    tokensFrom 0 (pre ++ (g.words ++ rest))
      = tokensFrom 0 pre ++ ⟨g.opening.lexeme, (spell pre).length + g.opening.gap.length⟩
        :: (tokensFrom (spell (pre ++ [g.opening])).length g.inside
          ++ ⟨g.closing.lexeme,
              (spell (pre ++ g.opening :: g.inside)).length + g.closing.gap.length⟩
            :: tokensFrom (spell (pre ++ g.words)).length rest) := by
  simp [Group.words, Word.text, tokensFrom_append, tokensFrom, Nat.add_assoc]

section Signature

variable {before next tail : Text} {g : Group} {pre post : List Word} {back : List Branch}
  {s : Node} (hback : ∀ kind ∈ kinds back, kind ∉ [Kind.openParen, .closeParen, .parameter])

include hback

/-- The parentheses and the parameters among the children of a signature. -/
theorem childrenOf_paramsBranches
    (hs : s.children = nodesAll before next (Signature.paramsBranches g ++ back)) :
    ∃ n m : Node, s.childrenOf [.openParen] = [n] ∧ s.childrenOf [.closeParen] = [m]
      ∧ s.childrenOf [.parameter] = nodesAll (before ++ g.opening.text) g.closing.gap
        (parameterBranches 0 [] g.inside)
      ∧ n.start = before.length + g.opening.gap.length
      ∧ n.stop = before.length + g.opening.text.length
      ∧ m.start = before.length + (spell (g.opening :: g.inside)).length + g.closing.gap.length
      ∧ m.stop = before.length + (spell g.words).length := by
  obtain ⟨n, m, hnodes, hn, hnstart, hnstop, hm, hmstart, hmstop⟩ :=
    nodesAll_paramsBranches before next g back
  have hparams := kinds_parameterBranches 0 [] g.inside
  have hfilter : ∀ k ∈ [Kind.openParen, .closeParen, .parameter], s.childrenOf [k]
      = [n].filter (fun n => [k].contains n.kind)
        ++ ((nodesAll (before ++ g.opening.text) g.closing.gap
            (parameterBranches 0 [] g.inside)).filter (fun n => [k].contains n.kind)
          ++ [m].filter (fun n => [k].contains n.kind)) := by
    intro k hk
    rw [Node.childrenOf, hs, hnodes, ← List.singleton_append (x := n), List.filter_append,
      List.filter_append, ← List.singleton_append (x := m), List.filter_append,
      filter_nodesAll fun hin => hback k hin hk, List.append_nil]
  have hparen : ∀ k ≠ Kind.parameter, (nodesAll (before ++ g.opening.text) g.closing.gap
      (parameterBranches 0 [] g.inside)).filter (fun n => [k].contains n.kind) = [] :=
    fun k hk => filter_nodesAll fun hin => hk (hparams k hin)
  refine ⟨n, m, ?_, ?_, ?_, hnstart, hnstop, hmstart, hmstop⟩
  · rw [hfilter _ (by decide), hparen _ (by decide)]
    simp [hn, hm]
  · rw [hfilter _ (by decide), hparen _ (by decide)]
    simp [hn, hm]
  · rw [hfilter _ (by decide),
      filter_nodesAll_of_forall_mem fun kind hkind => List.mem_singleton.2 (hparams kind hkind)]
    simp [hn, hm]

theorem Node.cutFrom_of_children (hg : g.Valid .paren)
    (hws : ∀ w ∈ pre ++ (g.words ++ wordsAll back) ++ post, w.lexeme.text ≠ [])
    (hs : s.children
      = nodesAll (spell pre) (gapBefore tail post) (Signature.paramsBranches g ++ back)) :
    s.CutFrom (tokensFrom 0 (pre ++ (g.words ++ wordsAll back) ++ post)) := by
  obtain ⟨n, m, hn, hm, hparams, hnstart, hnstop, hmstart, hmstop⟩ :=
    childrenOf_paramsBranches hback hs
  have hwords : pre ++ (g.words ++ wordsAll back) ++ post
      = pre ++ (g.words ++ (wordsAll back ++ post)) := by simp
  rw [hwords] at hws ⊢
  have htokens := tokensFrom_group pre g (wordsAll back ++ post)
  have hlex := Tree.tokensFrom_toLexeme (spell (pre ++ [g.opening])).length g.inside
  refine ⟨_, _, _, _, _, htokens, hg.opening, Lexeme.isOp_of_closes? hg.closing,
    ⟨.paren, Lexeme.opens?_of_isOp hg.opening, hlex ▸ hg.inside, hg.closing⟩, ⟨n, hn, hnstart, ?_⟩,
    ⟨m, hm, ?_, ?_⟩, ?_⟩
  · rw [hnstop]
    simp [Token.stop, Word.text, Nat.add_assoc]
  · rw [hmstart]
    simp [Nat.add_assoc]
  · rw [hmstop]
    simp [Token.stop, Group.words, Nat.add_assoc]
  · have hinside : ∀ w ∈ g.inside, w.lexeme.text ≠ [] :=
      fun w hw => hws w (by simp [Group.words, hw])
    rw [hparams]
    simpa [Word.text] using parameters_nodesAll hg.inside hinside (pre ++ [g.opening]) g.closing.gap

end Signature

namespace Tree

/-- Every signature of a tree has the parameters that its parentheses hold. -/
theorem parameters_of_parse {source : Text} {tree : Tree} (h : parse source = .ok tree) :
    ∃ tokens, source.scan = .ok tokens
      ∧ ∀ s ∈ tree.root.walk, s.kind = .functionSignature → s.CutFrom tokens := by
  obtain ⟨items, tail, rfl, hv, hl, ht, rfl⟩ := exists_of_parse h
  refine ⟨_, scan_of_legible hl ht, fun s hs hkind => ?_⟩
  simp only [ofBranches, Node.walk, List.mem_cons] at hs
  rcases hs with rfl | hs
  · cases hkind
  · have hsigned := Grammar.allIn ModuleMember.all_signed hv
    obtain ⟨kind, label, bs, pre, post, hb, hw, rfl⟩ := exists_branch _ [] tail hsigned s hs
    obtain ⟨sg, hparams, rfl⟩ := hb hkind
    have hne := hl.text_ne_nil
    rw [Grammar.words, hw] at hne ⊢
    rw [wordsAll_append, Signature.wordsAll_paramsBranches] at hne ⊢
    refine Node.cutFrom_of_children ?_ hparams hne rfl
    cases sg.returns with
    | none => exact fun kind hk => absurd hk List.not_mem_nil
    | some r =>
      intro kind hk
      obtain rfl := List.mem_singleton.1 hk
      decide

/-- Commas at both ends, two in a row, and commas in inner brackets of three kinds. -/
theorem parameters_of_parse_nested :
    let source : Text :=
      "function f(, int a, map<[int, int]> b = \x7bx: g(1, 2)\x7d, , c,) returns d \x7b\x7d".toList
    ∃ tree tokens, parse source = .ok tree ∧ source.scan = .ok tokens
      ∧ ∃ s ∈ tree.root.walk, s.kind = .functionSignature
        ∧ (s.childrenOf [.parameter]).map (fun n => (n.start, n.stop))
          = [(13, 18), (20, 52), (56, 57)]
        ∧ s.CutFrom tokens := by
  intro source
  have hrun : ((parse source).toOption.any fun tree => tree.root.walk.any fun s =>
      s.kind = .functionSignature && (s.childrenOf [.parameter]).map (fun n => (n.start, n.stop))
        = [(13, 18), (20, 52), (56, 57)]) = true := by
    simp only [source]
    rw [String.toList_ofList]
    decide +kernel
  obtain ⟨tree, hparse, hrun⟩ := exists_of_any hrun
  obtain ⟨tokens, hscan, hcut⟩ := parameters_of_parse hparse
  obtain ⟨s, hs, hkind⟩ := List.any_eq_true.1 hrun
  simp only [Bool.and_eq_true, decide_eq_true_eq] at hkind
  exact ⟨tree, tokens, hparse, hscan, s, hs, hkind.1, hkind.2, hcut s hs hkind.1⟩

end Tree

end BalMediation
