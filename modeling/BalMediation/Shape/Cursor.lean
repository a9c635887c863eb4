import BalMediation.Bracket
import BalMediation.Shape

/-!
# Cursors

A cursor stands between two lexemes of a source. Readers take a cursor and give back the one where
they stopped; `Cursor.skipGroup` passes over a bracket and all that it encloses, `Cursor.scan`
over lexemes and whole groups until a rule says stop.

A reader's result is never further from the end than its argument, which is what makes the readers
that repeat others end.
-/

namespace BalMediation

/-- A place in a list of lexemes: the number of lexemes before it, the last of them, and those to
come. -/
structure Cursor where
  index : Nat
  previous : Option Lexeme
  rest : List Lexeme
deriving Repr

namespace Cursor

/-- The cursor at the beginning of a source. -/
def start (lexemes : List Lexeme) : Cursor :=
  ⟨0, none, lexemes⟩

/-- The lexeme behind the cursor. -/
def head? (c : Cursor) : Option Lexeme :=
  c.rest.head?

/-- Past one lexeme; at the end it stays. -/
def advance (c : Cursor) : Cursor :=
  match c.rest with
  | [] => c
  | l :: ls => ⟨c.index + 1, some l, ls⟩

/-- Whether the next lexeme is this operator. -/
def atOp (c : Cursor) (spelling : Text) : Bool :=
  c.head?.any (·.isOp spelling)

/-- Whether the next lexeme is this word. -/
def atWord (c : Cursor) (spelling : Text) : Bool :=
  c.head?.any (·.isWord spelling)

/-- Whether the next lexeme is an identifier. -/
def atIdent (c : Cursor) : Bool :=
  c.head?.any (·.kind = .ident)

/-- Whether no lexeme is left. -/
def atEnd (c : Cursor) : Bool :=
  c.rest.isEmpty

/-- Fails at the cursor. -/
def fail {α : Type} (c : Cursor) (cause : Cause) : Except Fault α :=
  .error ⟨cause, c.index⟩

/-- Past a semicolon, if one comes next. -/
def skipSemicolon (c : Cursor) : Cursor :=
  if c.atOp [';'] then c.advance else c

@[simp] theorem advance_index_nil (i : Nat) (p : Option Lexeme) :
    advance ⟨i, p, []⟩ = ⟨i, p, []⟩ := rfl

@[simp] theorem advance_index_cons (i : Nat) (p : Option Lexeme) (l : Lexeme) (ls : List Lexeme) :
    advance ⟨i, p, l :: ls⟩ = ⟨i + 1, some l, ls⟩ := rfl

theorem advance_rest (c : Cursor) : c.advance.rest = c.rest.tail := by
  rcases c with ⟨i, p, _ | ⟨l, ls⟩⟩ <;> rfl

theorem advance_le (c : Cursor) : c.advance.rest.length ≤ c.rest.length := by
  simp [advance_rest]

theorem advance_lt {c : Cursor} (h : c.atEnd = false) :
    c.advance.rest.length < c.rest.length := by
  rcases c with ⟨i, p, _ | ⟨l, ls⟩⟩
  · simp [atEnd] at h
  · simp [advance]

theorem atEnd_of_atIdent {c : Cursor} (h : c.atIdent = true) : c.atEnd = false := by
  rcases c with ⟨i, p, _ | ⟨l, ls⟩⟩
  · simp [atIdent, head?] at h
  · rfl

theorem skipSemicolon_le (c : Cursor) : c.skipSemicolon.rest.length ≤ c.rest.length := by
  unfold skipSemicolon
  split
  · exact c.advance_le
  · exact Nat.le_refl _

/-! ## Groups -/

/-- Reads on until every bracket of `opened` is closed, innermost first. Each stands with the
number of its token. -/
def closeGroups (opened : List (Nat × Bracket)) (index : Nat) (previous : Option Lexeme) :
    List Lexeme → Except Fault Cursor
  | [] =>
    match opened with
    | [] => .ok ⟨index, previous, []⟩
    | (i, b) :: _ => .error ⟨.unbalanced b.opening, i⟩
  | l :: ls =>
    match opened with
    | [] => .ok ⟨index, previous, l :: ls⟩
    | (i, b) :: outer =>
      match l.opens? with
      | some inner => closeGroups ((index, inner) :: (i, b) :: outer) (index + 1) (some l) ls
      | none =>
        match l.closes? with
        | some closed =>
          if closed = b then closeGroups outer (index + 1) (some l) ls
          else .error ⟨.unexpected l.text, index⟩
        | none => closeGroups ((i, b) :: outer) (index + 1) (some l) ls

/-- From an opening bracket `b`, past the bracket that closes it. -/
def skipGroup (b : Bracket) (c : Cursor) : Except Fault Cursor :=
  closeGroups [(c.index, b)] c.advance.index c.advance.previous c.advance.rest

theorem closeGroups_le {opened : List (Nat × Bracket)} {i : Nat} {p : Option Lexeme}
    {ls : List Lexeme} {c : Cursor} (h : closeGroups opened i p ls = .ok c) :
    c.rest.length ≤ ls.length := by
  induction ls generalizing opened i p with
  | nil =>
    cases opened with
    | nil => cases h; simp
    | cons o os => simp [closeGroups] at h
  | cons l ls ih =>
    unfold closeGroups at h
    split at h
    · cases h; simp
    · split at h
      · have := ih h; simp; omega
      · split at h
        · split at h
          · have := ih h; simp; omega
          · simp at h
        · have := ih h; simp; omega

theorem skipGroup_lt {b : Bracket} {c c' : Cursor} (h : skipGroup b c = .ok c')
    (hc : c.atEnd = false) : c'.rest.length < c.rest.length :=
  Nat.lt_of_le_of_lt (closeGroups_le h) (advance_lt hc)

theorem skipGroup_le {b : Bracket} {c c' : Cursor} (h : skipGroup b c = .ok c') :
    c'.rest.length ≤ c.rest.length :=
  Nat.le_trans (closeGroups_le h) (advance_le c)

/-! ## Scanning -/

/-- What a scan does at a lexeme outside every group. -/
inductive Step where
  /-- End the scan in front of the lexeme. -/
  | stop
  /-- Go past the lexeme. -/
  | pass
  /-- Go past the group that the lexeme opens. -/
  | group (b : Bracket)
  /-- Give up here. -/
  | fail (cause : Cause)

/-- Reads on until the rule says stop or the source ends. The rule sees the lexeme before the
cursor and the one behind it. -/
def scan (rule : Option Lexeme → Lexeme → Step) (c : Cursor) : Except Fault Cursor :=
  match _hc : c.rest with
  | [] => .ok c
  | l :: _ =>
    match rule c.previous l with
    | .stop => .ok c
    | .pass => scan rule c.advance
    | .fail cause => c.fail cause
    | .group b =>
      match _hg : c.skipGroup b with
      | .error fault => .error fault
      | .ok c' => scan rule c'
termination_by c.rest.length
decreasing_by
  · simp [advance_rest, _hc]
  · exact skipGroup_lt _hg (by simp [atEnd, _hc])

theorem scan_le {rule : Option Lexeme → Lexeme → Step} {c c' : Cursor}
    (h : scan rule c = .ok c') : c'.rest.length ≤ c.rest.length := by
  fun_induction scan rule c with
  | case1 c hc => cases h; exact Nat.le_refl _
  | case2 c l ls hc hr => cases h; exact Nat.le_refl _
  | case3 c l ls hc hr ih => exact Nat.le_trans (ih h) c.advance_le
  | case4 c l ls hc cause hr => simp [fail] at h
  | case5 c l ls hc b hr fault hg => simp at h
  | case6 c l ls hc b hr c'' hg ih => exact Nat.le_trans (ih h) (skipGroup_le hg)

/-- The rule at lexemes that a reader has no rule of its own for: groups are passed over whole and
a closing bracket is out of place. -/
def Step.plain (l : Lexeme) : Step :=
  match l.opens? with
  | some b => .group b
  | none => if l.closes?.isSome then .fail (.unexpected l.text) else .pass

/-- Fails if a closing bracket comes next. -/
def rejectClosing (c : Cursor) : Except Fault Unit :=
  match c.head? with
  | some l => if l.closes?.isSome then c.fail (.unexpected l.text) else .ok ()
  | none => .ok ()

/-- Whether an opening brace behind this lexeme begins an inline record or object type. -/
def opensTypeBody (previous : Option Lexeme) : Bool :=
  previous.any fun l => l.isWord "record".toList || l.isWord "object".toList

/-- Whether a lexeme opens a block, given the lexeme before it. -/
def opensBlock (previous : Option Lexeme) (l : Lexeme) : Bool :=
  l.isOp ['\x7b'] && !opensTypeBody previous

end Cursor

end BalMediation
