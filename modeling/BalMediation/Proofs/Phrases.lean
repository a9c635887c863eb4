import BalMediation.Proofs.Branches

/-!
# Phrases

What the readers of a source read, as data: annotations, signatures, bodies, functions, services,
declarations of imports and the members of no interest. A phrase knows its words and the branches
that it leaves in the tree, and is valid in front of some lexemes if a reader that stands at its
first word takes all of it and stops there.

Only the first two of those lexemes matter: whether an annotation, an optional semicolon or a
return type goes on.
-/

namespace BalMediation.Phrase

open Cursor

/-- Whether the first of some lexemes is this operator. -/
def startsOp (s : Text) (ls : List Lexeme) : Bool :=
  ls.head?.any (·.isOp s)

/-- Whether the first of some lexemes is this word. -/
def startsWord (s : Text) (ls : List Lexeme) : Bool :=
  ls.head?.any (·.isWord s)

/-- Whether a colon and an identifier come first. -/
def startsQualified (ls : List Lexeme) : Bool :=
  startsOp [':'] ls && ls.tail.head?.any (·.kind = .ident)

theorem startsOp_append {s : Text} {ls : List Lexeme} (h : ls ≠ []) (rest : List Lexeme) :
    startsOp s (ls ++ rest) = startsOp s ls := by
  cases ls with
  | nil => exact absurd rfl h
  | cons l ls => rfl

theorem startsWord_append {s : Text} {ls : List Lexeme} (h : ls ≠ []) (rest : List Lexeme) :
    startsWord s (ls ++ rest) = startsWord s ls := by
  cases ls with
  | nil => exact absurd rfl h
  | cons l ls => rfl

/-- Whether annotations cannot tell apart what comes behind them. -/
structure Alike (ls ls' : List Lexeme) : Prop where
  head : ls.head? = ls'.head?
  qualified : ∀ as : List Lexeme, startsQualified (as ++ ls) = startsQualified (as ++ ls')

namespace Alike

variable {ls ls' : List Lexeme}

theorem startsOp (h : Alike ls ls') (s : Text) : startsOp s ls = startsOp s ls' := by
  rw [Phrase.startsOp, Phrase.startsOp, h.head]

theorem append (h : Alike ls ls') (as : List Lexeme) : Alike (as ++ ls) (as ++ ls') := by
  refine ⟨?_, fun bs => ?_⟩
  · rw [List.head?_append, List.head?_append, h.head]
  · rw [← List.append_assoc, ← List.append_assoc, h.qualified]

/-- Two lexemes are all that annotations see. -/
theorem of_take (h : ls.take 2 = ls'.take 2) : Alike ls ls' := by
  have hk : ∀ k, k ≤ 2 → ls.take k = ls'.take k := by
    intro k hk
    have := congrArg (List.take k) h
    rwa [List.take_take, List.take_take, Nat.min_eq_left hk] at this
  have hq : ∀ as : List Lexeme, startsQualified as = startsQualified (as.take 2) := by
    rintro (_ | ⟨a, _ | ⟨b, as⟩⟩) <;> rfl
  refine ⟨?_, fun as => ?_⟩
  · have h1 := congrArg List.head? (hk 1 (by decide))
    rwa [List.head?_take, List.head?_take, if_neg (by decide)] at h1
  · rw [hq, hq (as ++ ls'), List.take_append, List.take_append, hk _ (Nat.sub_le _ _)]

theorem cons {l : Lexeme} (h : l.isOp [':'] = false) : Alike (l :: ls) (l :: ls') := by
  refine ⟨rfl, ?_⟩
  rintro (_ | ⟨a, _ | ⟨b, as⟩⟩)
  · simp [startsQualified, Phrase.startsOp, h]
  · rfl
  · rfl

end Alike

/-- A bracket, what it encloses, and the bracket that closes it. -/
structure Group where
  opening : Word
  inside : List Word
  closing : Word

namespace Group

def words (g : Group) : List Word :=
  g.opening :: (g.inside ++ [g.closing])

structure Valid (b : Bracket) (g : Group) : Prop where
  opening : g.opening.lexeme.isOp b.opening = true
  inside : Nested (lexemes g.inside)
  closing : g.closing.lexeme.closes? = some b

end Group

/-! ## In front of a member -/

/-- An annotation: `@`, a name, perhaps qualified, and perhaps a record. -/
structure Attachment where
  sign : Word
  name : Word
  qualified : List Word
  record : List Word

namespace Attachment

def words (a : Attachment) : List Word :=
  a.sign :: a.name :: (a.qualified ++ a.record)

def branch (a : Attachment) : Branch :=
  .span .annotationAttachment a.words

@[simp] theorem words_branch (a : Attachment) : a.branch.words = a.words := by
  simp [branch]

@[simp] theorem wordsAll_branch (as : List Attachment) :
    Branch.wordsAll (as.map branch) = as.flatMap words := by
  induction as with
  | nil => simp
  | cons a as ih => simp [ih]

structure Valid (a : Attachment) (rest : List Lexeme) : Prop where
  sign : a.sign.lexeme.isOp ['@'] = true
  name : a.name.lexeme.kind = .ident
  qualified : (a.qualified = [] ∧ startsQualified (lexemes a.record ++ rest) = false)
    ∨ ∃ colon name, a.qualified = [colon, name] ∧ colon.lexeme.isOp [':'] = true
      ∧ name.lexeme.kind = .ident
  record : (a.record = [] ∧ startsOp ['\x7b'] rest = false)
    ∨ ∃ g : Group, a.record = g.words ∧ g.Valid .brace

/-- Annotations one after the other, up to a place where none comes. -/
def AllValid : List Attachment → List Lexeme → Prop
  | [], rest => startsOp ['@'] rest = false
  | a :: as, rest => a.Valid (lexemes (as.flatMap words) ++ rest) ∧ AllValid as rest

theorem AllValid.congr {as : List Attachment} {rest rest' : List Lexeme}
    (h : AllValid as rest) (hr : Alike rest rest') : AllValid as rest' := by
  induction as with
  | nil => exact (hr.startsOp _).symm.trans h
  | cons a as ih =>
    obtain ⟨ha, has⟩ := h
    have hrest := hr.append (lexemes (as.flatMap words))
    refine ⟨⟨ha.sign, ha.name, ?_, ?_⟩, ih has⟩
    · rw [← hrest.qualified]
      exact ha.qualified
    · rw [← hrest.startsOp]
      exact ha.record

end Attachment

/-- Annotations and qualifiers in front of a member. -/
structure Leading where
  annotations : List Attachment
  qualifiers : List Word

namespace Leading

def words (h : Leading) : List Word :=
  h.annotations.flatMap Attachment.words ++ h.qualifiers

def branches (h : Leading) : List Branch :=
  h.annotations.map Attachment.branch ++ h.qualifiers.map (.leaf .keyword)

@[simp] theorem wordsAll_branches (h : Leading) : Branch.wordsAll h.branches = h.words := by
  simp [branches, words]

structure Valid (allowed : List Text) (h : Leading) (rest : List Lexeme) : Prop where
  annotations : Attachment.AllValid h.annotations (lexemes h.qualifiers ++ rest)
  qualifiers : ∀ w ∈ h.qualifiers, w.lexeme.kind = .ident ∧ w.lexeme.text ∈ allowed
  ends : ∀ l ∈ rest.head?, ¬ (l.kind = .ident ∧ l.text ∈ allowed)

theorem Valid.congr {allowed : List Text} {h : Leading} {rest rest' : List Lexeme}
    (hv : h.Valid allowed rest) (hr : Alike rest rest') : h.Valid allowed rest' := by
  refine ⟨hv.annotations.congr (hr.append _), hv.qualifiers, ?_⟩
  rw [← hr.head]
  exact hv.ends

end Leading

/-! ## Members of no interest -/

/-- Where a member of no interest stops. -/
def memberRule (previous : Option Lexeme) (l : Lexeme) : Step :=
  if l.isOp [';'] || opensBlock previous l then .stop else .plain l

/-- How a member of no interest ends. -/
inductive Ending where
  | semicolon (w : Word)
  | block (g : Group) (semicolon : Option Word)

namespace Ending

def words : Ending → List Word
  | semicolon w => [w]
  | block g s => g.words ++ s.toList

/-- `p` is the lexeme before the ending. -/
def Valid (p : Option Lexeme) (rest : List Lexeme) : Ending → Prop
  | semicolon w => w.lexeme.isOp [';'] = true
  | block g s => g.Valid .brace ∧ opensTypeBody p = false ∧
    match s with
    | none => startsOp [';'] rest = false
    | some w => w.lexeme.isOp [';'] = true

end Ending

/-- A member of no interest. -/
structure Other where
  leading : Leading
  content : List Word
  ending : Ending

namespace Other

/-- The words behind the qualifiers. -/
def core (o : Other) : List Word :=
  o.content ++ o.ending.words

def words (o : Other) : List Word :=
  o.leading.words ++ o.core

def branch (o : Other) : Branch :=
  .node .other .none (o.words.map .word)

@[simp] theorem words_branch (o : Other) : o.branch.words = o.words := by
  simp [branch]

structure Valid (allowed : List Text) (p : Option Lexeme) (o : Other) (rest : List Lexeme) :
    Prop where
  leading : o.leading.Valid allowed (lexemes o.core ++ rest)
  content : Passes memberRule (latest p (lexemes o.leading.words)) (lexemes o.content)
  ending : o.ending.Valid (latest p (lexemes (o.leading.words ++ o.content))) rest

theorem core_ne_nil (o : Other) : lexemes o.core ≠ [] := by
  obtain ⟨leading, content, e⟩ := o
  cases e <;> simp [core, Ending.words, Group.words]

theorem Valid.alike_core {allowed : List Text} {p : Option Lexeme} {o : Other}
    {rest : List Lexeme} (h : o.Valid allowed p rest) (rest' : List Lexeme) :
    Alike (lexemes o.core ++ rest) (lexemes o.core ++ rest') := by
  obtain ⟨leading, content, e⟩ := o
  cases e with
  | semicolon w =>
    have hw : w.lexeme.isOp [';'] = true := h.ending
    rw [core, Ending.words, lexemes_append, List.append_assoc, List.append_assoc]
    refine .append (.cons ?_) _
    simp only [Lexeme.isOp, Bool.and_eq_true, beq_iff_eq] at hw ⊢
    simp [hw.2]
  | block g s =>
    rw [core, Ending.words, Group.words, lexemes_append, List.append_assoc, List.append_assoc]
    refine .append (.of_take ?_) _
    cases hi : g.inside <;> simp

/-- A member of no interest sees whether a semicolon comes, and of the lexeme before it only whether
it makes a brace open a type. -/
theorem Valid.congr {allowed : List Text} {p p' : Option Lexeme} {o : Other}
    {rest rest' : List Lexeme} (h : o.Valid allowed p rest)
    (hp : opensTypeBody p = opensTypeBody p') (hr : startsOp [';'] rest = startsOp [';'] rest') :
    o.Valid allowed p' rest' := by
  have hlatest : ∀ ls : List Lexeme,
      opensTypeBody (latest p ls) = opensTypeBody (latest p' ls) := by
    rintro (_ | ⟨l, ls⟩)
    · exact hp
    · rfl
  refine ⟨h.leading.congr (h.alike_core rest'), h.content.congr fun l => ?_, ?_⟩
  · rw [memberRule, memberRule, opensBlock, opensBlock, hlatest]
  · have he := h.ending
    unfold Ending.Valid at he ⊢
    split
    · rename_i heq
      simpa only [heq] using he
    · rename_i g s heq
      simp only [heq] at he
      refine ⟨he.1, (hlatest _).symm.trans he.2.1, ?_⟩
      have hs := he.2.2
      cases s with
      | none => exact hr.symm.trans hs
      | some w => exact hs

end Other

/-! ## Functions -/

/-- Where the path of a resource accessor stops. -/
def pathRule (_ : Option Lexeme) (l : Lexeme) : Step :=
  if l.isOp ['('] || l.isOp ['\x7b'] || l.isOp [';'] then .stop
  else if l.isOp ['['] then .group .square
  else .pass

/-- Where a return type stops. -/
def typeRule (previous : Option Lexeme) (l : Lexeme) : Step :=
  if l.isOp "=>".toList || l.isOp ['='] || l.isOp [';'] || opensBlock previous l then .stop
  else .plain l

/-- Where the parameters of a signature stop. -/
def paramsRule (_ : Option Lexeme) (l : Lexeme) : Step :=
  if l.isOp [')'] then .stop else .plain l

/-- Where an expression or external body stops. -/
def clauseRule (_ : Option Lexeme) (l : Lexeme) : Step :=
  if l.isOp [';'] then .stop else .plain l

/-- `returns`, annotations and a type. -/
structure Returns where
  keyword : Word
  annotations : List Attachment
  type : List Word

namespace Returns

def words (r : Returns) : List Word :=
  r.keyword :: (r.annotations.flatMap Attachment.words ++ r.type)

def branch (r : Returns) : Branch :=
  .node .returnTypeDescriptor .none
    (.leaf .keyword r.keyword ::
      (r.annotations.map Attachment.branch ++ [.span .typeDescriptor r.type]))

@[simp] theorem words_branch (r : Returns) : r.branch.words = r.words := by
  simp [branch, words]

/-- The lexeme before the type. -/
def latest (r : Returns) : Option Lexeme :=
  Cursor.latest (some r.keyword.lexeme) (lexemes (r.annotations.flatMap Attachment.words))

structure Valid (r : Returns) (rest : List Lexeme) : Prop where
  keyword : r.keyword.lexeme.isWord "returns".toList = true
  annotations : Attachment.AllValid r.annotations (lexemes r.type ++ rest)
  ne_nil : r.type ≠ []
  type : Passes typeRule r.latest (lexemes r.type)
  ends : Stops typeRule (Cursor.latest r.latest (lexemes r.type)) rest

theorem Valid.of_append {r : Returns} {ls : List Lexeme} (hl : ls ≠ []) {rest rest' : List Lexeme}
    (h : r.Valid (ls ++ rest)) : r.Valid (ls ++ rest') := by
  obtain ⟨l, ls, rfl⟩ := List.exists_cons_of_ne_nil hl
  obtain ⟨w, type, ht⟩ := List.exists_cons_of_ne_nil h.ne_nil
  refine ⟨h.keyword, h.annotations.congr (.of_take ?_), h.ne_nil, h.type, h.ends⟩
  rw [ht]
  cases type <;> rfl

end Returns

/-- The brackets that are open behind a lexeme, counted. -/
def depthAfter (depth : Nat) (l : Lexeme) : Nat :=
  if l.opens?.isSome then depth + 1 else if l.closes?.isSome then depth - 1 else depth

/-- The parameters between two parentheses, and the commas between them. `run` is what has been
read of the parameter at the front. -/
def parameterBranches (depth : Nat) (run : List Word) : List Word → List Branch
  | [] => if run.isEmpty then [] else [.span .parameter run]
  | w :: ws =>
    if depth = 0 && w.lexeme.isOp [','] then
      (if run.isEmpty then [] else [.span .parameter run]) ++ .word w :: parameterBranches 0 [] ws
    else parameterBranches (depthAfter depth w.lexeme) (run ++ [w]) ws

@[simp] theorem wordsAll_parameterBranches (depth : Nat) (run ws : List Word) :
    Branch.wordsAll (parameterBranches depth run ws) = run ++ ws := by
  have hrun : ∀ r : List Word,
      Branch.wordsAll (if r.isEmpty then [] else [.span .parameter r]) = r := by
    intro r
    cases r <;> simp
  induction ws generalizing depth run with
  | nil => rw [parameterBranches, hrun, List.append_nil]
  | cons w ws ih =>
    rw [parameterBranches]
    split
    · rw [Branch.wordsAll_append, hrun, Branch.wordsAll_cons, ih]
      simp
    · rw [ih, List.append_assoc, List.singleton_append]

/-- Parameters in their parentheses, and perhaps a return type. -/
structure Signature where
  params : Group
  returns : Option Returns

namespace Signature

def returnsWords (s : Signature) : List Word :=
  match s.returns with
  | none => []
  | some r => r.words

def words (s : Signature) : List Word :=
  s.params.words ++ s.returnsWords

/-- The parentheses and the parameters between them. -/
def paramsBranches (g : Group) : List Branch :=
  .leaf .openParen g.opening ::
    (parameterBranches 0 [] g.inside ++ [.leaf .closeParen g.closing])

def branch (s : Signature) : Branch :=
  .node .functionSignature .none (paramsBranches s.params ++ s.returns.toList.map Returns.branch)

@[simp] theorem wordsAll_paramsBranches (g : Group) :
    Branch.wordsAll (paramsBranches g) = g.words := by
  simp [paramsBranches, Group.words]

@[simp] theorem words_branch (s : Signature) : s.branch.words = s.words := by
  obtain ⟨params, returns⟩ := s
  cases returns <;> simp [branch, words, returnsWords]

structure Valid (s : Signature) (rest : List Lexeme) : Prop where
  params : s.params.Valid .paren
  returns : match s.returns with
    | none => startsWord "returns".toList rest = false
    | some r => r.Valid rest

theorem Valid.of_append {s : Signature} {ls : List Lexeme} (hl : ls ≠ [])
    {rest rest' : List Lexeme} (h : s.Valid (ls ++ rest)) : s.Valid (ls ++ rest') := by
  refine ⟨h.params, ?_⟩
  have hr := h.returns
  split
  · rename_i heq
    rw [heq] at hr
    rw [startsWord_append hl] at hr ⊢
    exact hr
  · rename_i r heq
    rw [heq] at hr
    exact hr.of_append hl

end Signature

/-- The body of a function. -/
inductive Body where
  | block (g : Group)
  | clause (sign : Word) (content : List Word) (semicolon : Word)
  | bare (semicolon : Word)

namespace Body

def words : Body → List Word
  | block g => g.words
  | clause sign content semicolon => sign :: (content ++ [semicolon])
  | bare semicolon => [semicolon]

/-- The kind of a clause, by the sign it begins with. -/
def clauseKind (sign : Word) : Kind :=
  if sign.lexeme.isOp "=>".toList then .expressionFunctionBody else .externalFunctionBody

def branches : Body → List Branch
  | block g =>
    [.node .functionBodyBlock .none
      (.leaf .openBrace g.opening :: (g.inside.map .word ++ [.leaf .closeBrace g.closing]))]
  | clause sign content semicolon =>
    [.node (clauseKind sign) .none ((sign :: (content ++ [semicolon])).map .word)]
  | bare semicolon => [.word semicolon]

@[simp] theorem wordsAll_branches (b : Body) : Branch.wordsAll b.branches = b.words := by
  cases b <;> simp [branches, words, Group.words]

theorem words_ne_nil (b : Body) : b.words ≠ [] := by
  cases b <;> simp [words, Group.words]

def Valid : Body → Prop
  | block g => g.Valid .brace
  | clause sign content semicolon =>
    (sign.lexeme.isOp "=>".toList = true ∨ sign.lexeme.isOp ['='] = true)
      ∧ Passes clauseRule none (lexemes (sign :: content)) ∧ semicolon.lexeme.isOp [';'] = true
  | bare semicolon => semicolon.lexeme.isOp [';'] = true

end Body

/-- A function from its keyword on. -/
structure Function where
  keyword : Word
  name : Word
  path : List Word
  signature : Signature
  body : Body

namespace Function

def words (f : Function) : List Word :=
  f.keyword :: f.name :: (f.path ++ (f.signature.words ++ f.body.words))

def branches (f : Function) : List Branch :=
  .leaf .keyword f.keyword :: .leaf .identifier f.name ::
    ((if f.path.isEmpty then [] else [.span .resourcePath f.path])
      ++ f.signature.branch :: f.body.branches)

@[simp] theorem wordsAll_branches (f : Function) : Branch.wordsAll f.branches = f.words := by
  cases hp : f.path <;> simp [branches, words, hp]

theorem take_words (f : Function) (rest : List Lexeme) :
    (lexemes f.words ++ rest).take 2 = (lexemes f.words).take 2 := rfl

structure Valid (kind : Kind) (f : Function) : Prop where
  keyword : f.keyword.lexeme.isWord "function".toList = true
  name : f.name.lexeme.kind = .ident
  path : if kind = .resourceAccessorDefinition then f.path ≠ [] else f.path = []
  passes : Passes pathRule none (lexemes f.path)
  signature : f.signature.Valid (lexemes f.body.words)
  body : f.body.Valid

end Function

/-- A function with what stands in front of it. -/
structure Definition where
  leading : Leading
  function : Function

namespace Definition

def words (d : Definition) : List Word :=
  d.leading.words ++ d.function.words

def branch (kind : Kind) (d : Definition) : Branch :=
  .node kind .none (d.leading.branches ++ d.function.branches)

@[simp] theorem words_branch (kind : Kind) (d : Definition) : (d.branch kind).words = d.words := by
  simp [branch, words]

structure Valid (allowed : List Text) (kind : Kind) (d : Definition) : Prop where
  leading : d.leading.Valid allowed (lexemes d.function.words)
  function : d.function.Valid kind

end Definition

/-! ## Members -/

/-- What may stand among members. -/
inductive Item (M : Type) where
  | semicolon (w : Word)
  | member (m : M)

/-- The branches that members leave, and when one is valid behind a lexeme and before others. -/
structure Grammar (M : Type) where
  branch : M → Branch
  Valid : Option Lexeme → M → List Lexeme → Prop

namespace Grammar

variable {M : Type} (G : Grammar M)

def itemBranch : Item M → Branch
  | .semicolon w => .word w
  | .member m => G.branch m

def words (items : List (Item M)) : List Word :=
  Branch.wordsAll (items.map G.itemBranch)

@[simp] theorem words_nil : G.words [] = [] := by
  simp [words]

@[simp] theorem words_semicolon (w : Word) (items : List (Item M)) :
    G.words (.semicolon w :: items) = w :: G.words items := by
  simp [words, itemBranch]

@[simp] theorem words_member (m : M) (items : List (Item M)) :
    G.words (.member m :: items) = (G.branch m).words ++ G.words items := by
  simp [words, itemBranch]

/-- Whether a member begins with these lexemes as far as semicolons and brackets go. -/
def Begins (ls : List Lexeme) : Prop :=
  ∃ l ∈ ls.head?, l.isOp [';'] = false ∧ l.closes? = none

/-- Members one after the other, with semicolons between. -/
def AllValid : Option Lexeme → List (Item M) → List Lexeme → Prop
  | _, [], _ => True
  | _, .semicolon w :: items, rest =>
    w.lexeme.isOp [';'] = true ∧ AllValid (some w.lexeme) items rest
  | p, .member m :: items, rest =>
    Begins (lexemes (G.branch m).words) ∧ G.Valid p m (lexemes (G.words items) ++ rest)
      ∧ AllValid (latest p (lexemes (G.branch m).words)) items rest

/-- Whether members only see if a semicolon comes, and of the lexeme before them if it makes a brace
open a type. -/
def Local : Prop :=
  ∀ {p p' : Option Lexeme} {m : M} {rest rest' : List Lexeme}, G.Valid p m rest →
    opensTypeBody p = opensTypeBody p' → startsOp [';'] rest = startsOp [';'] rest' →
    G.Valid p' m rest'

variable {G}

theorem AllValid.congr (hG : G.Local) {items : List (Item M)} {p p' : Option Lexeme}
    {rest rest' : List Lexeme} (h : G.AllValid p items rest)
    (hp : opensTypeBody p = opensTypeBody p') (hr : startsOp [';'] rest = startsOp [';'] rest') :
    G.AllValid p' items rest' := by
  induction items generalizing p p' with
  | nil => trivial
  | cons item items ih =>
    cases item with
    | semicolon w => exact ⟨h.1, ih h.2 rfl⟩
    | member m =>
      obtain ⟨hb, hm, hitems⟩ := h
      refine ⟨hb, hG hm hp ?_, ih hitems ?_⟩
      · cases hw : lexemes (G.words items) with
        | nil => exact hr
        | cons l ls => rfl
      · obtain ⟨l, hl, -⟩ := hb
        cases hw : lexemes (G.branch m).words with
        | nil => simp [hw] at hl
        | cons l' ls => rfl

theorem AllValid.eq_nil {items : List (Item M)} {p : Option Lexeme} {rest : List Lexeme}
    (h : G.AllValid p items rest) (hw : G.words items = []) : items = [] := by
  cases items with
  | nil => rfl
  | cons item items =>
    cases item with
    | semicolon w => simp at hw
    | member m =>
      obtain ⟨⟨l, hl, -⟩, -⟩ := h
      rw [words_member, List.append_eq_nil_iff] at hw
      rw [hw.1] at hl
      cases hl

theorem allValid_append {items items' : List (Item M)} {p : Option Lexeme} {rest : List Lexeme} :
    G.AllValid p (items ++ items') rest
      ↔ G.AllValid p items (lexemes (G.words items') ++ rest)
        ∧ G.AllValid (latest p (lexemes (G.words items))) items' rest := by
  induction items generalizing p with
  | nil => simp [AllValid]
  | cons item items ih =>
    cases item with
    | semicolon w => simp [AllValid, ih, and_assoc]
    | member m =>
      have hw : G.words (items ++ items') = G.words items ++ G.words items' := by
        simp [words]
      simp [AllValid, ih, and_assoc, hw]

end Grammar

/-- A member of a service. -/
inductive ServiceMember where
  | function (d : Definition)
  | other (o : Other)

/-- A function in a service is a resource accessor if it is qualified as one. -/
def Leading.memberKind (h : Leading) : Kind :=
  if (h.qualifiers.map (·.lexeme.text)).contains "resource".toList then .resourceAccessorDefinition
  else .objectMethodDefinition

/-- The members of a service. -/
def serviceGrammar : Grammar ServiceMember where
  branch
    | .function d => d.branch d.leading.memberKind
    | .other o => o.branch
  Valid p m rest :=
    match m with
    | .function d => d.Valid memberQualifiers d.leading.memberKind
    | .other o =>
      o.Valid memberQualifiers p rest ∧ startsWord "function".toList (lexemes o.core) = false

@[simp] theorem serviceGrammar_function (d : Definition) :
    serviceGrammar.branch (.function d) = d.branch d.leading.memberKind := rfl

@[simp] theorem serviceGrammar_other (o : Other) :
    serviceGrammar.branch (.other o) = o.branch := rfl

theorem serviceGrammar_local : serviceGrammar.Local := by
  intro p p' m rest rest' h hp hr
  cases m with
  | function d => exact h
  | other o => exact ⟨h.1.congr hp hr, h.2⟩

/-- Where the type and the path of a service stop. -/
def attachRule (_ : Option Lexeme) (l : Lexeme) : Step :=
  if l.isWord "on".toList || l.isOp ['\x7b'] || l.isOp [';'] then .stop else .pass

/-- Where the listener of a service stops. -/
def listenerRule (_ : Option Lexeme) (l : Lexeme) : Step :=
  if l.isOp ['\x7b'] || l.isOp [';'] then .stop
  else if l.isOp ['('] then .group .paren
  else if l.isOp ['['] then .group .square
  else if l.closes?.isSome then .fail (.unexpected l.text)
  else .pass

/-- A service from its keyword on. -/
structure Service where
  keyword : Word
  attach : List Word
  on : Word
  listener : List Word
  opening : Word
  items : List (Item ServiceMember)
  closing : Word
  semicolon : Option Word

namespace Service

/-- Whether a word belongs to the type in front of the path. -/
def inType (w : Word) : Bool :=
  !(w.lexeme.isOp ['/'] || w.lexeme.kind = .string)

def attachBranches (attach : List Word) : List Branch :=
  (if (attach.takeWhile inType).isEmpty then []
    else [.span .typeDescriptor (attach.takeWhile inType)])
  ++ (if (attach.dropWhile inType).isEmpty then []
    else [.span .absoluteResourcePath (attach.dropWhile inType)])

/-- The words from the keyword to the brace. -/
def head (s : Service) : List Word :=
  s.keyword :: (s.attach ++ s.on :: (s.listener ++ [s.opening]))

/-- The words from the closing brace on. -/
def foot (s : Service) : List Word :=
  s.closing :: s.semicolon.toList

def words (s : Service) : List Word :=
  s.head ++ (serviceGrammar.words s.items ++ s.foot)

def headBranches (s : Service) : List Branch :=
  .leaf .keyword s.keyword :: (attachBranches s.attach
    ++ [.leaf .keyword s.on, .span .expression s.listener, .leaf .openBrace s.opening])

def footBranches (s : Service) : List Branch :=
  .leaf .closeBrace s.closing :: s.semicolon.toList.map .word

def branches (s : Service) : List Branch :=
  s.headBranches ++ (s.items.map serviceGrammar.itemBranch ++ s.footBranches)

@[simp] theorem wordsAll_attachBranches (ws : List Word) :
    Branch.wordsAll (attachBranches ws) = ws := by
  nth_rewrite 2 [← List.takeWhile_append_dropWhile (p := inType) (l := ws)]
  unfold attachBranches
  cases ws.takeWhile inType <;> cases ws.dropWhile inType <;> simp

@[simp] theorem wordsAll_branches (s : Service) : Branch.wordsAll s.branches = s.words := by
  cases hs : s.semicolon <;>
    simp [branches, words, headBranches, head, footBranches, foot, Grammar.words, hs]

structure Valid (s : Service) (rest : List Lexeme) : Prop where
  keyword : s.keyword.lexeme.isWord "service".toList = true
  noClass : startsWord "class".toList (lexemes (s.attach ++ [s.on])) = false
  attach : Passes attachRule none (lexemes s.attach)
  on : s.on.lexeme.isWord "on".toList = true
  listener : Passes listenerRule none (lexemes s.listener)
  opening : s.opening.lexeme.isOp ['\x7b'] = true
  items : serviceGrammar.AllValid (some s.opening.lexeme) s.items (lexemes s.foot)
  closing : s.closing.lexeme.isOp ['\x7d'] = true
  semicolon : match s.semicolon with
    | none => startsOp [';'] rest = false
    | some w => w.lexeme.isOp [';'] = true

end Service

/-- Where the name of an imported module stops. -/
def importRule (_ : Option Lexeme) (l : Lexeme) : Step :=
  if l.isOp [';'] || l.isWord "as".toList then .stop else .pass

/-- Where what is behind an alias stops. -/
def aliasRule (_ : Option Lexeme) (l : Lexeme) : Step :=
  if l.isOp [';'] then .stop else .pass

/-- `as`, perhaps an identifier, and what is passed over. -/
structure Alias where
  keyword : Word
  given : Option Word
  rest : List Word

namespace Alias

def words (a : Alias) : List Word :=
  a.keyword :: (a.given.toList ++ a.rest)

def branches (a : Alias) : List Branch :=
  .word a.keyword :: (a.given.toList.map (.leaf .identifier) ++ a.rest.map .word)

structure Valid (a : Alias) : Prop where
  keyword : a.keyword.lexeme.isWord "as".toList = true
  given : match a.given with
    | none => ∀ l ∈ (lexemes a.rest).head?, l.kind ≠ .ident
    | some w => w.lexeme.kind = .ident
  rest : Passes aliasRule none (lexemes a.rest)

end Alias

/-- A declaration that imports a module. -/
structure Import where
  keyword : Word
  name : List Word
  renamed : Option Alias
  semicolon : Word

namespace Import

def aliasWords (i : Import) : List Word :=
  match i.renamed with
  | none => []
  | some a => a.words

def aliasBranches (i : Import) : List Branch :=
  match i.renamed with
  | none => []
  | some a => a.branches

def words (i : Import) : List Word :=
  i.keyword :: (i.name ++ (i.aliasWords ++ [i.semicolon]))

def branch (i : Import) : Branch :=
  .node .importDeclaration (.name (i.name.flatMap (·.lexeme.text)))
    (.word i.keyword :: (i.name.map .word ++ (i.aliasBranches ++ [.word i.semicolon])))

@[simp] theorem words_branch (i : Import) : i.branch.words = i.words := by
  obtain ⟨keyword, name, renamed, semicolon⟩ := i
  rcases renamed with _ | ⟨k, given, rest⟩
  · simp [branch, words, aliasBranches, aliasWords]
  · cases given <;> simp [branch, words, aliasBranches, aliasWords, Alias.branches, Alias.words]

structure Valid (i : Import) : Prop where
  keyword : i.keyword.lexeme.isWord "import".toList = true
  name : Passes importRule none (lexemes i.name)
  renamed : ∀ a ∈ i.renamed, a.Valid
  semicolon : i.semicolon.lexeme.isOp [';'] = true

end Import

/-- A member of a module. -/
inductive ModuleMember where
  | declaration (i : Import)
  | service (leading : Leading) (s : Service)
  | function (d : Definition)
  | other (o : Other)

/-- Whether a member of a module with these qualifiers in front begins another way. -/
def Other.Plain (o : Other) : Prop :=
  (startsWord "import".toList (lexemes o.core) = true → o.leading.words ≠ [])
    ∧ (startsWord "service".toList (lexemes o.core) = true →
      startsWord "class".toList (lexemes o.core).tail = true)
    ∧ (startsWord "function".toList (lexemes o.core) = true →
      startsOp ['('] (lexemes o.core).tail = true)

/-- The members of a module. -/
def moduleGrammar : Grammar ModuleMember where
  branch
    | .declaration i => i.branch
    | .service leading s => .node .serviceDeclaration .none (leading.branches ++ s.branches)
    | .function d => d.branch .functionDefinition
    | .other o => o.branch
  Valid p m rest :=
    match m with
    | .declaration i => i.Valid
    | .service leading s =>
      leading.Valid moduleQualifiers (lexemes s.words ++ rest) ∧ s.Valid rest
    | .function d => d.Valid moduleQualifiers .functionDefinition
    | .other o => o.Valid moduleQualifiers p rest ∧ o.Plain

@[simp] theorem moduleGrammar_declaration (i : Import) :
    moduleGrammar.branch (.declaration i) = i.branch := rfl

@[simp] theorem moduleGrammar_service (leading : Leading) (s : Service) :
    moduleGrammar.branch (.service leading s)
      = .node .serviceDeclaration .none (leading.branches ++ s.branches) := rfl

@[simp] theorem moduleGrammar_function (d : Definition) :
    moduleGrammar.branch (.function d) = d.branch .functionDefinition := rfl

@[simp] theorem moduleGrammar_other (o : Other) : moduleGrammar.branch (.other o) = o.branch := rfl

theorem Service.Valid.congr {s : Service} {rest rest' : List Lexeme} (h : s.Valid rest)
    (hr : startsOp [';'] rest = startsOp [';'] rest') : s.Valid rest' := by
  refine { h with semicolon := ?_ }
  have hs := h.semicolon
  split
  · rename_i heq
    rw [heq] at hs
    exact hr.symm.trans hs
  · rename_i w heq
    rw [heq] at hs
    exact hs

theorem Service.take_words (s : Service) (rest : List Lexeme) :
    (lexemes s.words ++ rest).take 2 = (lexemes s.words).take 2 := by
  obtain ⟨keyword, attach, on, listener, opening, items, closing, semicolon⟩ := s
  cases attach <;> rfl

theorem moduleGrammar_local : moduleGrammar.Local := by
  intro p p' m rest rest' h hp hr
  cases m with
  | declaration i => exact h
  | service leading s =>
    refine ⟨h.1.congr (.of_take ?_), h.2.congr hr⟩
    rw [s.take_words, s.take_words]
  | function d => exact h
  | other o => exact ⟨h.1.congr hp hr, h.2⟩

end BalMediation.Phrase
