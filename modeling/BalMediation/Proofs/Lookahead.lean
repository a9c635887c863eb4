import BalMediation.Proofs.Words

/-!
# Lookahead

A lexeme begins in one of seven ways, and its first character says which (`next_iff`). It is read
off the front of a text if it can be read alone and nothing of what follows can go on with it
(`reads_iff`). What can go on with a lexeme shows in the first character of what follows, or in the
first two if the first is a point or a backslash (`ahead`), and white space goes on with nothing.
-/

namespace BalMediation.Lexer

theorem isIdentPart_of_isDigit {c : Char} (h : Text.isDigit c = true) : isIdentPart c = true := by
  have hsub : Text.digitRanges.all (fun r => Text.numeralRanges.any fun s =>
      decide (s.1 ≤ r.1 ∧ r.2 ≤ s.2)) = true := by decide +kernel
  have hn : Text.isNumeral c = true := by
    unfold Text.isDigit at h
    unfold Text.isNumeral
    split_ifs at h ⊢
    · exact h
    · obtain ⟨r, hr, h1, h2⟩ := Text.inRanges_iff.1 h
      obtain ⟨s, hs, hrs⟩ := List.any_eq_true.1 (List.all_eq_true.1 hsub r hr)
      simp only [decide_eq_true_eq] at hrs
      exact Text.inRanges_iff.2 ⟨s, hs, by omega, by omega⟩
  simp [isIdentPart, hn]

theorem numberLength_eq_zero_of_cons {c : Char} {t : Text} (h : numberLength (c :: t) = 0) :
    Text.isDigit c = false := by
  cases hc : Text.isDigit c with
  | false => rfl
  | true => simp [numberLength, isIdentPart_of_isDigit hc] at h

theorem numberLength_append {u t : Text} :
    numberLength (u ++ t) = u.length ↔ numberLength u = u.length ∧ numberLength t = 0 := by
  induction u with
  | nil => simp [numberLength]
  | cons c u ih =>
    have hd : numberLength t = 0 → startsDigit (u ++ t) = startsDigit u := by
      intro ht
      cases u with
      | cons d u => rfl
      | nil =>
        cases t with
        | nil => rfl
        | cons d t => simp [startsDigit, numberLength_eq_zero_of_cons ht]
    simp only [List.cons_append, numberLength, List.length_cons]
    constructor
    · intro h
      split_ifs at h with hc
      obtain ⟨hu, ht⟩ := ih.1 (by omega)
      rw [hd ht] at hc
      exact ⟨by rw [if_pos hc, hu], ht⟩
    · rintro ⟨h, ht⟩
      split_ifs at h with hc
      rw [← hd ht] at hc
      rw [if_pos hc, ih.2 ⟨by omega, ht⟩]

theorem identLength_cons {c : Char} (hc : c ≠ '\\') (t : Text) :
    identLength (c :: t) = if isIdentPart c then identLength t + 1 else 0 := by
  cases t <;> simp [identLength, hc]

theorem identLength_eq_zero {c : Char} (hp : isIdentPart c = false) (he : c ≠ '\\') (t : Text) :
    identLength (c :: t) = 0 := by
  rw [identLength_cons he, hp]
  rfl

theorem identLength_append : ∀ {u t : Text},
    identLength (u ++ t) = u.length ↔ identLength u = u.length ∧ identLength t = 0
  | [], t => by simp [identLength]
  | [c], t => by
    by_cases hc : c = '\\'
    · cases t <;> simp [identLength, hc]
    · rw [List.singleton_append, identLength_cons hc, identLength_cons hc]
      by_cases hp : isIdentPart c <;> simp [identLength, hp]
  | c :: d :: u, t => by
    by_cases hc : c = '\\'
    · simpa [identLength, hc] using identLength_append (u := u)
    · by_cases hp : isIdentPart c
      · have := identLength_append (u := d :: u) (t := t)
        simpa [identLength_cons hc, hp] using this
      · simp [identLength_cons hc, hp]

theorem stringLength_cons {c : Char} (hc : c ≠ '\\') (t : Text) :
    stringLength (c :: t)
      = if c = '"' then some 1 else if c = '\n' then none else (stringLength t).map (· + 1) := by
  cases t <;> simp [stringLength, hc]

theorem stringLength_ne_zero (t : Text) : stringLength t ≠ some 0 := by
  intro h
  unfold stringLength at h
  split at h
  · simp at h
  · split at h
    · split at h <;> simp at h
    · split_ifs at h <;> simp at h

theorem stringLength_append : ∀ {u t : Text},
    stringLength (u ++ t) = some u.length ↔ stringLength u = some u.length
  | [], t => by simp [stringLength_ne_zero]
  | [c], t => by
    by_cases hc : c = '\\'
    · cases t <;> simp [stringLength, hc]
    · have ht := stringLength_ne_zero t
      rw [List.singleton_append, stringLength_cons hc, stringLength_cons hc]
      by_cases hq : c = '"' <;> simp [hq, stringLength, ht]
  | c :: d :: u, t => by
    by_cases hc : c = '\\'
    · simpa [stringLength, hc] using stringLength_append (u := u)
    · have ih := stringLength_append (u := d :: u) (t := t)
      rw [List.cons_append, stringLength_cons hc, stringLength_cons hc]
      by_cases hq : c = '"'
      · simp [hq]
      · by_cases hn : c = '\n'
        · simp [hn]
        · simpa [hq, hn] using ih

theorem templateLength_append {u t : Text} :
    templateLength (u ++ t) = some u.length ↔ templateLength u = some u.length := by
  induction u with
  | nil =>
    have hz : ∀ s, templateLength s ≠ some 0 := by
      intro s h
      cases s with
      | nil => simp [templateLength] at h
      | cons c s =>
        simp only [templateLength] at h
        split_ifs at h <;> simp at h
    simp [hz]
  | cons c u ih =>
    simp only [List.cons_append, templateLength, List.length_cons]
    split_ifs
    · rfl
    · simpa using ih

/-- No operator of several characters reaches from `s` into `t`. -/
def OperatorEnds (s t : Text) : Prop :=
  ∀ op ∈ operators, op <+: s ++ t → op <+: s

theorem two_le_of_mem_operators {op : Text} (h : op ∈ operators) : 2 ≤ op.length := by
  have hall : operators.all (fun o => decide (2 ≤ o.length)) = true := by decide +kernel
  simpa using List.all_eq_true.1 hall op h

theorem isSpace_of_mem_operators {op : Text} {c : Char} (h : op ∈ operators) (hc : c ∈ op) :
    isSpace c = false := by
  have hall : operators.all (fun o => o.all (!isSpace ·)) = true := by decide +kernel
  simpa using List.all_eq_true.1 (List.all_eq_true.1 hall op h) c hc

/-- The operators are told apart by their first two characters. -/
theorem operators_eq_of_begins {op op' s : Text} (h : op ∈ operators) (h' : op' ∈ operators)
    (hs : op <+: s) (hs' : op' <+: s) : op = op' := by
  have htwo : ∀ a ∈ operators, ∀ b ∈ operators, a.take 2 = b.take 2 → a = b := by decide +kernel
  refine htwo op h op' h' ?_
  rw [List.prefix_iff_eq_take] at hs hs'
  rw [hs, hs', List.take_take, List.take_take, Nat.min_eq_left (two_le_of_mem_operators h),
    Nat.min_eq_left (two_le_of_mem_operators h')]

theorem operatorLength_of_begins {op s : Text} (h : op ∈ operators) (hs : op <+: s) :
    operatorLength s = op.length - 1 := by
  unfold operatorLength
  cases hf : operators.find? (·.isPrefixOf s) with
  | none =>
    have := List.find?_eq_none.1 hf op h
    simp [List.isPrefixOf_iff_prefix, hs] at this
  | some op' =>
    have hp := List.find?_some hf
    rw [operators_eq_of_begins h (List.mem_of_find?_eq_some hf) hs
      (List.isPrefixOf_iff_prefix.1 hp)]

theorem operatorLength_eq_zero {s : Text} (h : ∀ op ∈ operators, ¬ op <+: s) :
    operatorLength s = 0 := by
  unfold operatorLength
  rw [List.find?_eq_none.2 fun op hop => by
    rw [List.isPrefixOf_iff_prefix]
    exact h op hop]

/-- An operator of several characters is one of the list. -/
theorem mem_operators_of_length {c : Char} {u : Text} (h : operatorLength (c :: u) = u.length)
    (hu : u ≠ []) : c :: u ∈ operators := by
  unfold operatorLength at h
  split at h
  · rename_i op hfind
    have hfound := List.find?_some hfind
    have hpre := List.isPrefixOf_iff_prefix.1 hfound
    have hmem := List.mem_of_find?_eq_some hfind
    have htwo := two_le_of_mem_operators hmem
    obtain rfl : op = c :: u := hpre.eq_of_length (by rw [List.length_cons]; omega)
    exact hmem
  · exact absurd (List.eq_nil_of_length_eq_zero h.symm) hu

theorem operatorLength_append {c : Char} {u t : Text} :
    operatorLength (c :: (u ++ t)) = u.length
      ↔ operatorLength (c :: u) = u.length ∧ OperatorEnds (c :: u) t := by
  constructor
  · intro h
    have hends : OperatorEnds (c :: u) t := by
      intro op hop hp
      have hl := operatorLength_of_begins hop hp
      rw [List.cons_append, h] at hl
      refine List.prefix_of_prefix_length_le hp (List.prefix_append _ _) ?_
      simp only [List.length_cons]
      omega
    refine ⟨?_, hends⟩
    by_cases hex : ∃ op ∈ operators, op <+: c :: (u ++ t)
    · obtain ⟨op, hop, hp⟩ := hex
      rw [operatorLength_of_begins hop (hends op hop hp), ← h, operatorLength_of_begins hop hp]
    · have hno : ∀ op ∈ operators, ¬ op <+: c :: (u ++ t) := fun op hop hp => hex ⟨op, hop, hp⟩
      rw [operatorLength_eq_zero hno] at h
      rw [← h, operatorLength_eq_zero]
      intro op hop hp
      exact hno op hop (hp.trans (List.prefix_append (c :: u) t))
  · rintro ⟨h, hends⟩
    by_cases hex : ∃ op ∈ operators, op <+: c :: u
    · obtain ⟨op, hop, hp⟩ := hex
      have hp' := hp.trans (List.prefix_append (c :: u) t)
      rw [← List.cons_append, operatorLength_of_begins hop hp', ← h,
        operatorLength_of_begins hop hp]
    · have hno : ∀ op ∈ operators, ¬ op <+: c :: u := fun op hop hp => hex ⟨op, hop, hp⟩
      rw [operatorLength_eq_zero hno] at h
      rw [← h, operatorLength_eq_zero]
      intro op hop hp
      exact hno op hop (hends op hop hp)

/-- Nothing of `t` goes on with a lexeme in front of it. -/
def Ends (l : Lexeme) (t : Text) : Prop :=
  match l.kind with
  | .ident => identLength t = 0
  | .number => numberLength t = 0
  | .op => OperatorEnds l.text t
  | _ => True

section Next

variable {c : Char} {t : Text} {kind : TokenKind} {n : Nat}

theorem next_string : next '"' t = .ok (kind, n) ↔ kind = .string ∧ stringLength t = some n := by
  simp only [next, if_pos]
  cases stringLength t <;> simp [eq_comm]

theorem next_template :
    next '\x60' t = .ok (kind, n) ↔ kind = .template ∧ templateLength t = some n := by
  simp only [next, if_pos, reduceIte, Char.reduceEq]
  cases templateLength t <;> simp [eq_comm]

theorem next_number (h : Text.isDigit c = true) :
    next c t = .ok (kind, n) ↔ kind = .number ∧ numberLength t = n := by
  have h1 : c ≠ '"' := by
    rintro rfl
    exact absurd h (by decide)
  have h2 : c ≠ '\x60' := by
    rintro rfl
    exact absurd h (by decide)
  simp [next, h1, h2, h, eq_comm]

theorem next_quoted :
    next '\'' t = .ok (kind, n) ↔ kind = .ident ∧ n ≠ 0 ∧ identLength t = n := by
  have h : Text.isDigit '\'' = false := by decide
  simp only [next, if_pos, reduceIte, Char.reduceEq, h, Bool.false_eq_true]
  cases identLength t with
  | zero =>
    simp only [reduceCtorEq, false_iff]
    rintro ⟨-, hn, h⟩
    exact hn h.symm
  | succ m =>
    simp only [Except.ok.injEq, Prod.mk.injEq]
    constructor
    · rintro ⟨rfl, rfl⟩
      exact ⟨rfl, by simp, rfl⟩
    · rintro ⟨rfl, -, rfl⟩
      exact ⟨rfl, rfl⟩

theorem next_escaped {d : Char} :
    next '\\' (d :: t) = .ok (kind, n) ↔ kind = .ident ∧ identLength t + 1 = n := by
  have h : Text.isDigit '\\' = false := by decide
  simp [next, h, eq_comm]

theorem next_escaped_nil : next '\\' [] ≠ .ok (kind, n) := by
  have h : Text.isDigit '\\' = false := by decide
  simp [next, h]

theorem next_ident (hq : c ≠ '\'') (he : c ≠ '\\') (h : isIdentStart c = true)
    (hd : Text.isDigit c = false) :
    next c t = .ok (kind, n) ↔ kind = .ident ∧ identLength t = n := by
  have h1 : c ≠ '"' := by
    rintro rfl
    exact absurd h (by decide)
  have h2 : c ≠ '\x60' := by
    rintro rfl
    exact absurd h (by decide)
  simp [next, h1, h2, hq, he, h, hd, eq_comm]

theorem next_op (h1 : c ≠ '"') (h2 : c ≠ '\x60') (hd : Text.isDigit c = false)
    (h : isIdentStart c = false) :
    next c t = .ok (kind, n) ↔ kind = .op ∧ operatorLength (c :: t) = n := by
  have h3 : c ≠ '\'' := by
    rintro rfl
    exact absurd h (by decide)
  have h4 : c ≠ '\\' := by
    rintro rfl
    exact absurd h (by decide)
  simp [next, h1, h2, h3, h4, h, hd, eq_comm]

/-- The ways in which a lexeme begins with `c`, by its kind, and what says that `n` characters of
`t` go on with it. -/
inductive NextIs : Char → Text → TokenKind → Nat → Prop
  | string {t : Text} {n : Nat} : stringLength t = some n → NextIs '"' t .string n
  | template {t : Text} {n : Nat} : templateLength t = some n → NextIs '\x60' t .template n
  | number {c : Char} {t : Text} {n : Nat} : Text.isDigit c = true → numberLength t = n →
      NextIs c t .number n
  | quoted {t : Text} {n : Nat} : n ≠ 0 → identLength t = n → NextIs '\'' t .ident n
  | escaped {d : Char} {s t : Text} {n : Nat} : t = d :: s → identLength s + 1 = n →
      NextIs '\\' t .ident n
  | ident {c : Char} {t : Text} {n : Nat} : c ≠ '\'' → c ≠ '\\' → isIdentStart c = true →
      Text.isDigit c = false → identLength t = n → NextIs c t .ident n
  | op {c : Char} {t : Text} {n : Nat} : c ≠ '"' → c ≠ '\x60' → Text.isDigit c = false →
      isIdentStart c = false → operatorLength (c :: t) = n → NextIs c t .op n

theorem nextIs_of_next (h : next c t = .ok (kind, n)) : NextIs c t kind n := by
  by_cases h1 : c = '"'
  · subst h1
    obtain ⟨rfl, hlen⟩ := next_string.1 h
    exact .string hlen
  by_cases h2 : c = '\x60'
  · subst h2
    obtain ⟨rfl, hlen⟩ := next_template.1 h
    exact .template hlen
  cases h3 : Text.isDigit c with
  | true =>
    obtain ⟨rfl, hlen⟩ := (next_number h3).1 h
    exact .number h3 hlen
  | false =>
    by_cases h4 : c = '\''
    · subst h4
      obtain ⟨rfl, hn, hlen⟩ := next_quoted.1 h
      exact .quoted hn hlen
    by_cases h5 : c = '\\'
    · subst h5
      cases t with
      | nil => exact absurd h next_escaped_nil
      | cons d t =>
        obtain ⟨rfl, hlen⟩ := next_escaped.1 h
        exact .escaped rfl hlen
    cases h6 : isIdentStart c with
    | true =>
      obtain ⟨rfl, hlen⟩ := (next_ident h4 h5 h6 h3).1 h
      exact .ident h4 h5 h6 h3 hlen
    | false =>
      obtain ⟨rfl, hlen⟩ := (next_op h1 h2 h3 h6).1 h
      exact .op h1 h2 h3 h6 hlen

theorem next_iff : next c t = .ok (kind, n) ↔ NextIs c t kind n := by
  refine ⟨nextIs_of_next, fun h => ?_⟩
  cases h with
  | string h => exact next_string.2 ⟨rfl, h⟩
  | template h => exact next_template.2 ⟨rfl, h⟩
  | number hd h => exact (next_number hd).2 ⟨rfl, h⟩
  | quoted hn h => exact next_quoted.2 ⟨rfl, hn, h⟩
  | escaped ht h =>
    rw [ht]
    exact next_escaped.2 ⟨rfl, h⟩
  | ident hq he hi hd h => exact (next_ident hq he hi hd).2 ⟨rfl, h⟩
  | op h1 h2 hd hi h => exact (next_op h1 h2 hd hi).2 ⟨rfl, h⟩

end Next

theorem next_append {c : Char} {u t : Text} {kind : TokenKind} :
    next c (u ++ t) = .ok (kind, u.length)
      ↔ next c u = .ok (kind, u.length) ∧ Ends ⟨kind, c :: u⟩ t := by
  rw [next_iff, next_iff]
  constructor
  · intro h
    cases h with
    | string h => exact ⟨.string (stringLength_append.1 h), trivial⟩
    | template h => exact ⟨.template (templateLength_append.1 h), trivial⟩
    | number hd h => exact ⟨.number hd (numberLength_append.1 h).1, (numberLength_append.1 h).2⟩
    | quoted hn h => exact ⟨.quoted hn (identLength_append.1 h).1, (identLength_append.1 h).2⟩
    | escaped hs h =>
      cases u with
      | nil => simp at h
      | cons d u =>
        obtain ⟨rfl, rfl⟩ := List.cons.inj hs
        have h := identLength_append.1 (Nat.succ.inj h)
        exact ⟨.escaped rfl (congrArg (· + 1) h.1), h.2⟩
    | ident hq he hi hd h =>
      exact ⟨.ident hq he hi hd (identLength_append.1 h).1, (identLength_append.1 h).2⟩
    | op h1 h2 hd hi h =>
      exact ⟨.op h1 h2 hd hi (operatorLength_append.1 h).1, (operatorLength_append.1 h).2⟩
  · rintro ⟨h, he⟩
    cases h with
    | string h => exact .string (stringLength_append.2 h)
    | template h => exact .template (templateLength_append.2 h)
    | number hd h => exact .number hd (numberLength_append.2 ⟨h, he⟩)
    | quoted hn h => exact .quoted hn (identLength_append.2 ⟨h, he⟩)
    | escaped hs h =>
      subst hs
      exact .escaped rfl (congrArg (· + 1) (identLength_append.2 ⟨Nat.succ.inj h, he⟩))
    | ident hq hb hi hd h => exact .ident hq hb hi hd (identLength_append.2 ⟨h, he⟩)
    | op h1 h2 hd hi h => exact .op h1 h2 hd hi (operatorLength_append.2 ⟨h, he⟩)

theorem startsComment_cons_append {c : Char} {u t : Text} :
    startsComment (c :: (u ++ t)) = false
      ↔ startsComment (c :: u) = false ∧ ¬ (c = '/' ∧ u = [] ∧ t.head? = some '/') := by
  by_cases hc : c = '#'
  · simp [hc, startsComment]
  · by_cases hs : c = '/'
    · subst hs
      cases u with
      | nil =>
        cases t with
        | nil => simp [startsComment]
        | cons d t =>
          by_cases hd : d = '/' <;> simp [hd, startsComment]
      | cons d u => by_cases hd : d = '/' <;> simp [hd, startsComment]
    · have hf : ∀ s : Text, startsComment (c :: s) = false := by
        intro s
        unfold startsComment
        split <;> simp_all
      simp [hf, hs]

/-- A lexeme is read if it can be read alone and what follows neither goes on with it nor makes
a comment of it. -/
theorem reads_iff {l : Lexeme} {t : Text} :
    Reads l t ↔ Reads l [] ∧ Ends l t ∧ ¬ (l.text = ['/'] ∧ t.head? = some '/') := by
  obtain ⟨kind, text⟩ := l
  constructor
  · rintro ⟨c, u, rfl, hs, hc, hn⟩
    obtain ⟨hn, he⟩ := next_append.1 hn
    obtain ⟨hc, hd⟩ := startsComment_cons_append.1 hc
    refine ⟨⟨c, u, rfl, hs, by simpa using hc, by simpa using hn⟩, he, ?_⟩
    simpa [and_assoc] using hd
  · rintro ⟨⟨c, u, rfl, hs, hc, hn⟩, he, hd⟩
    rw [List.append_nil] at hc hn
    exact ⟨c, u, rfl, hs, startsComment_cons_append.2 ⟨hc, by simpa [and_assoc] using hd⟩,
      next_append.2 ⟨hn, he⟩⟩

/-! ## What can go on with a lexeme -/

/-- The characters of a text that a lexeme in front of it may go on with. -/
def ahead : Text → Text
  | [] => []
  | c :: t => if c = '.' ∨ c = '\\' then c :: t.take 1 else [c]

theorem ahead_begins (t : Text) : ahead t <+: t := by
  cases t with
  | nil => exact List.prefix_rfl
  | cons c t =>
    simp only [ahead]
    split_ifs
    · exact List.cons_prefix_cons.2 ⟨rfl, List.take_prefix 1 t⟩
    · exact List.cons_prefix_cons.2 ⟨rfl, List.nil_prefix⟩

theorem take_one_ahead (t : Text) : (ahead t).take 1 = t.take 1 := by
  cases t with
  | nil => rfl
  | cons c t =>
    simp only [ahead]
    split_ifs <;> simp

theorem head?_ahead (t : Text) : (ahead t).head? = t.head? := by
  cases t with
  | nil => rfl
  | cons c t =>
    simp only [ahead]
    split_ifs <;> rfl

theorem ahead_append {v : Text} (h : v ≠ []) (hp : v ≠ ['.']) (he : v ≠ ['\\']) (t : Text) :
    ahead (v ++ t) = ahead v := by
  cases v with
  | nil => exact absurd rfl h
  | cons c v =>
    cases v with
    | nil =>
      have hc : ¬ (c = '.' ∨ c = '\\') := by simpa using And.intro hp he
      simp [ahead, hc]
    | cons d v => simp [ahead]

theorem ahead_congr {t t' : Text} (h : ahead t = ahead t') (v : Text) :
    ahead (v ++ t) = ahead (v ++ t') := by
  have ht : t.take 1 = t'.take 1 := by rw [← take_one_ahead, h, take_one_ahead]
  by_cases h0 : v = []
  · rw [h0]
    exact h
  by_cases h1 : v = ['.']
  · simp [h1, ahead, ht]
  by_cases h2 : v = ['\\']
  · simp [h2, ahead, ht]
  rw [ahead_append h0 h1 h2, ahead_append h0 h1 h2]

theorem identLength_ahead (t : Text) : identLength (ahead t) = 0 ↔ identLength t = 0 := by
  cases t with
  | nil => rfl
  | cons c t =>
    by_cases he : c = '\\'
    · cases t <;> simp [ahead, he, identLength]
    · rw [identLength_cons he]
      by_cases hp : c = '.'
      · simp only [ahead, hp, true_or, if_pos]
        rw [identLength_cons (by simp)]
        simp [show isIdentPart '.' = false by decide]
      · by_cases hi : isIdentPart c <;> simp [ahead, hp, he, identLength_cons he, hi]

theorem numberLength_ahead (t : Text) : numberLength (ahead t) = 0 ↔ numberLength t = 0 := by
  cases t with
  | nil => rfl
  | cons c t =>
    by_cases hc : c = '.' ∨ c = '\\'
    · have hd : startsDigit (t.take 1) = startsDigit t := by cases t <;> rfl
      simp only [ahead, if_pos hc, numberLength, hd]
      split_ifs <;> simp
    · have hp : c ≠ '.' := fun h => hc (.inl h)
      simp only [ahead, if_neg hc, numberLength]
      by_cases hi : isIdentPart c <;> simp [hi, hp]

theorem operatorEnds_ahead {s t : Text} (hs : s ≠ []) :
    OperatorEnds s (ahead t) ↔ OperatorEnds s t := by
  have hlong : ∀ op ∈ operators, op.length ≤ 2 ∨ op = ['.', '.', '.'] := by decide +kernel
  have hmono : ∀ op ∈ operators, (op <+: s ++ t ↔ op <+: s ++ ahead t) := by
    intro op hop
    refine ⟨fun h => ?_, fun h => h.trans (List.prefix_append_right_inj s |>.2 (ahead_begins t))⟩
    rcases hlong op hop with hl | rfl
    · have hs1 : 1 ≤ s.length := List.length_pos_iff.2 hs
      have h1 : op <+: s ++ t.take 1 := by
        have ht : s ++ t.take 1 = (s ++ t).take (s.length + 1) := by
          rw [List.take_length_add_append]
        rw [ht]
        exact List.prefix_take_iff.2 ⟨h, by omega⟩
      rw [← take_one_ahead] at h1
      exact h1.trans (List.prefix_append_right_inj s |>.2 (List.take_prefix 1 _))
    · rcases s with - | ⟨a, - | ⟨b, - | ⟨d, s⟩⟩⟩
      · exact absurd rfl hs
      · cases t with
        | nil => simp at h
        | cons b t =>
          cases t with
          | nil => simp at h
          | cons d t =>
            simp only [List.cons_append, List.nil_append, List.cons_prefix_cons] at h
            obtain ⟨rfl, rfl, rfl, -⟩ := h
            simp [ahead]
      · cases t with
        | nil => simp at h
        | cons d t =>
          simp only [List.cons_append, List.nil_append, List.cons_prefix_cons] at h
          obtain ⟨rfl, rfl, rfl, -⟩ := h
          simp [ahead]
      · simp only [List.cons_append, List.cons_prefix_cons] at h ⊢
        obtain ⟨rfl, rfl, rfl, -⟩ := h
        simp
  unfold OperatorEnds
  constructor
  · intro h op hop hp
    exact h op hop ((hmono op hop).1 hp)
  · intro h op hop hp
    exact h op hop ((hmono op hop).2 hp)

theorem reads_ahead {l : Lexeme} {t : Text} : Reads l (ahead t) ↔ Reads l t := by
  rw [reads_iff, reads_iff (t := t), head?_ahead]
  refine and_congr_right fun h => and_congr_left fun _ => ?_
  unfold Ends
  split
  · exact identLength_ahead t
  · exact numberLength_ahead t
  · exact operatorEnds_ahead h.ne_nil
  · rfl

theorem Reads.ne_backslash {l : Lexeme} {t : Text} (h : Reads l t) : l.text ≠ ['\\'] := by
  intro hl
  obtain ⟨⟨c, u, hu, -, -, hn⟩, -⟩ := reads_iff.1 h
  rw [hl] at hu
  cases hu
  exact next_escaped_nil hn

theorem prefix_of_not_mem {p s t : Text} {c : Char} (hc : c ∉ p) (h : p <+: s ++ c :: t) :
    p <+: s := by
  refine List.prefix_of_prefix_length_le h (List.prefix_append _ _) ?_
  by_contra hlt
  obtain ⟨r, hr⟩ := List.prefix_of_prefix_length_le (List.prefix_append s (c :: t)) h (by omega)
  rw [← hr, List.prefix_append_right_inj] at h
  cases r with
  | nil => simp [← hr] at hlt
  | cons d r =>
    obtain ⟨rfl, -⟩ := List.cons_prefix_cons.1 h
    exact hc (by simp [← hr])

/-! ## White space -/

section Space

variable {v t t' : Text} {c : Char}

theorem isIdentPart_of_isSpace (h : isSpace c = true) :
    isIdentPart c = false ∧ c ≠ '\\' := by
  have hc : c = ' ' ∨ c = '\t' ∨ c = '\r' ∨ c = '\n' := by simpa [isSpace, or_assoc] using h
  rcases hc with rfl | rfl | rfl | rfl <;> exact ⟨by decide, by decide⟩

theorem identLength_space (h : isSpace c = true) (t : Text) :
    identLength (c :: t) = 0 :=
  identLength_eq_zero (isIdentPart_of_isSpace h).1 (isIdentPart_of_isSpace h).2 t

theorem identLength_append_space (h : identLength (v ++ t) = 0) (hv : v ≠ ['\\'])
    (hc : isSpace c = true) : identLength (v ++ c :: t') = 0 := by
  cases v with
  | nil => exact identLength_space hc t'
  | cons d v =>
    have hd : d ≠ '\\' := by
      rintro rfl
      cases v with
      | nil => exact hv rfl
      | cons e v => simp [identLength] at h
    rw [List.cons_append, identLength_cons hd] at h ⊢
    split_ifs at h with hi
    rw [if_neg hi]

theorem numberLength_append_space (h : numberLength (v ++ t) = 0) (hc : isSpace c = true) :
    numberLength (v ++ c :: t') = 0 := by
  have hpart := (isIdentPart_of_isSpace hc).1
  cases v with
  | nil =>
    have hpoint : c ≠ '.' := by
      rintro rfl
      exact absurd hc (by decide)
    simp [numberLength, hpart, hpoint]
  | cons d v =>
    have hsd : startsDigit (v ++ t) = false → startsDigit (v ++ c :: t') = false := by
      intro hf
      cases v with
      | nil =>
        refine Bool.eq_false_iff.2 fun hdigit => ?_
        rw [isIdentPart_of_isDigit hdigit] at hpart
        cases hpart
      | cons e v => exact hf
    simp only [List.cons_append, numberLength] at h ⊢
    split_ifs at h with hif
    rw [if_neg]
    simp only [Bool.or_eq_true, Bool.and_eq_true, not_or, not_and, Bool.not_eq_true] at hif ⊢
    exact ⟨hif.1, fun hd => hsd (hif.2 hd)⟩

theorem OperatorEnds.append_space {s : Text} (h : OperatorEnds s (v ++ t))
    (hc : isSpace c = true) : OperatorEnds s (v ++ c :: t') := by
  intro op hmem hp
  have hnot : c ∉ op := by
    intro hin
    rw [isSpace_of_mem_operators hmem hin] at hc
    cases hc
  rw [← List.append_assoc] at hp
  refine h op hmem ((prefix_of_not_mem hnot hp).trans ?_)
  rw [← List.append_assoc]
  exact List.prefix_append _ _

/-- White space goes on with no lexeme, also if another lexeme stands between. -/
theorem Reads.of_space {l : Lexeme} (h : Reads l (v ++ t)) (hv : v ≠ ['\\'])
    (hc : isSpace c = true) : Reads l (v ++ c :: t') := by
  obtain ⟨hl, he, hs⟩ := reads_iff.1 h
  refine reads_iff.2 ⟨hl, ?_, ?_⟩
  · unfold Ends at he ⊢
    split
    · rename_i hk
      simp only [hk] at he
      exact identLength_append_space he hv hc
    · rename_i hk
      simp only [hk] at he
      exact numberLength_append_space he hc
    · rename_i hk
      simp only [hk] at he
      exact he.append_space hc
    · trivial
  · rintro ⟨h1, h2⟩
    cases v with
    | nil =>
      obtain rfl : c = '/' := by simpa using h2
      exact absurd hc (by decide)
    | cons d v => exact hs ⟨h1, h2⟩

end Space

theorem Legible.spell_ne_backslash {ws : List Word} {t : Text} (h : Legible ws t) :
    spell ws ≠ ['\\'] := by
  intro hs
  cases ws with
  | nil => simp at hs
  | cons w ws =>
    obtain ⟨hg, hr, -⟩ := h
    have hlen := congrArg List.length hs
    have hpos := List.length_pos_iff.2 hr.ne_nil
    simp only [spell_cons, List.length_append, List.length_cons, List.length_nil] at hlen
    have hg0 : w.gap = [] := List.eq_nil_of_length_eq_zero (by omega)
    have hws : spell ws = [] := List.eq_nil_of_length_eq_zero (by omega)
    rw [spell_cons, hg0, hws, List.nil_append, List.append_nil] at hs
    exact hr.ne_backslash hs

/-- Words stay legible if what follows them looks the same to a lexeme. -/
theorem Legible.of_ahead {ws : List Word} {t t' : Text} (h : Legible ws t)
    (ha : ahead t = ahead t') : Legible ws t' := by
  induction ws with
  | nil => trivial
  | cons w ws ih =>
    refine ⟨h.1, ?_, ih h.2.2⟩
    rw [← reads_ahead, ← ahead_congr ha (spell ws), reads_ahead]
    exact h.2.1

/-- Words stay legible if white space is put behind them. -/
theorem Legible.of_space {ws : List Word} {t t' : Text} {c : Char} (h : Legible ws t)
    (hc : isSpace c = true) : Legible ws (c :: t') := by
  induction ws with
  | nil => trivial
  | cons w ws ih => exact ⟨h.1, h.2.1.of_space h.2.2.spell_ne_backslash hc, ih h.2.2⟩

/-- Words stay legible if what follows them cannot go on with the last. A point at the end is left
out, since what is behind it may go on with the number in front of it. -/
theorem Legible.of_last {ws : List Word} {w : Word} {t t' : Text} (h : Legible (ws ++ [w]) t)
    (hr : Reads w.lexeme t') (hp : w.lexeme.text ≠ ['.']) : Legible (ws ++ [w]) t' := by
  induction ws with
  | nil => exact ⟨h.1, hr, trivial⟩
  | cons a ws ih =>
    rw [List.cons_append] at h ⊢
    obtain ⟨hg, ha, hl⟩ := h
    refine ⟨hg, ?_, ih hl⟩
    have hne : w.lexeme.text ≠ [] := hr.ne_nil
    have h1 : spell (ws ++ [w]) ≠ [] := by simp [hne]
    have h2 : spell (ws ++ [w]) ≠ ['.'] := by
      intro hs
      have hlen := congrArg List.length hs
      have hpos := List.length_pos_iff.2 hne
      simp only [spell_append, spell_cons, spell_nil, List.append_nil, List.length_append,
        List.length_cons, List.length_nil] at hlen
      have hg0 : w.gap = [] := List.eq_nil_of_length_eq_zero (by omega)
      have hws : spell ws = [] := List.eq_nil_of_length_eq_zero (by omega)
      simp only [spell_append, spell_cons, spell_nil, hg0, hws, List.nil_append,
        List.append_nil] at hs
      exact hp hs
    rw [← reads_ahead, ahead_append h1 h2 hl.spell_ne_backslash] at ha ⊢
    exact ha

/-! ## Lexemes that nothing goes on with -/

/-- The delimiters of one character that begin no longer operator. -/
def solitary : List Char := ['(', ')', '[', ']', '\x7d', ';', ',']

theorem reads_solitary {c : Char} (h : c ∈ solitary) (t : Text) : Reads ⟨.op, [c]⟩ t := by
  have hall : operators.all (fun o => o.head?.any (decide <| · ∉ solitary)) = true := by
    decide +kernel
  have hop : ∀ op ∈ operators, ∀ u, ¬ op <+: c :: u := by
    intro op hop u hp
    have hfirst := List.all_eq_true.1 hall op hop
    cases op with
    | nil => cases hfirst
    | cons d r =>
      obtain ⟨rfl, -⟩ := List.cons_prefix_cons.1 hp
      simp [h] at hfirst
  have hclass : isSpace c = false ∧ startsComment [c] = false ∧ c ≠ '"' ∧ c ≠ '\x60' ∧ c ≠ '/'
      ∧ Text.isDigit c = false ∧ isIdentStart c = false := by
    simp only [solitary, List.mem_cons, List.not_mem_nil, or_false] at h
    rcases h with rfl | rfl | rfl | rfl | rfl | rfl | rfl <;> decide
  obtain ⟨hspace, hcomment, hquote, htick, hslash, hdigit, hident⟩ := hclass
  refine reads_iff.2 ⟨⟨c, [], rfl, hspace, hcomment, ?_⟩, ?_, ?_⟩
  · exact (next_op hquote htick hdigit hident).2 ⟨rfl, operatorLength_eq_zero (hop · · [])⟩
  · exact fun op hmem hp => absurd hp (hop op hmem t)
  · rintro ⟨hc, -⟩
    exact hslash (by simpa using hc)

end BalMediation.Lexer
