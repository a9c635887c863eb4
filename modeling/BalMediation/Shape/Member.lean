import BalMediation.Shape.Cursor

/-!
# Members

What the members of a module and of a service have in common: annotations and qualifiers in front,
semicolons between, and the members that are passed over whole.

A `Reader` reads one member and gets past at least one lexeme; `Cursor.members` repeats it.
-/

namespace BalMediation.Cursor

/-- Past the second half of a qualified name, a colon and an identifier, if it comes next. -/
def skipQualified (c : Cursor) : Cursor :=
  if c.atOp [':'] && c.advance.atIdent then c.advance.advance else c

theorem skipQualified_le (c : Cursor) : c.skipQualified.rest.length ≤ c.rest.length := by
  unfold skipQualified
  split
  · exact Nat.le_trans (advance_le _) (advance_le _)
  · exact Nat.le_refl _

/-- Reads one annotation: `@`, a name, perhaps qualified, and perhaps a record. -/
def annotationAttachment (c : Cursor) : Except Fault (Shape × Cursor) :=
  let name := c.advance
  if !name.atIdent then name.fail .annotationName
  else
    let after := name.advance.skipQualified
    if after.atOp ['\x7b'] then do
      let last ← after.skipGroup .brace
      return (.span .annotationAttachment c.index last.index, last)
    else .ok (.span .annotationAttachment c.index after.index, after)

theorem annotationAttachment_lt {c c' : Cursor} {s : Shape}
    (h : c.annotationAttachment = .ok (s, c')) :
    c'.rest.length < c.rest.length := by
  unfold annotationAttachment at h
  simp only [bind, Except.bind, pure, Except.pure] at h
  split at h
  · simp [fail] at h
  · rename_i hn
    have hname : c.advance.advance.skipQualified.rest.length < c.rest.length :=
      Nat.lt_of_le_of_lt (skipQualified_le _) <|
        Nat.lt_of_lt_of_le (advance_lt (atEnd_of_atIdent (by simpa using hn))) c.advance_le
    split at h
    · split at h
      · simp at h
      · rename_i last hg
        cases h
        exact Nat.lt_of_le_of_lt (skipGroup_le hg) hname
    · cases h
      exact hname

/-- Reads the annotations in front of a member or a return type. -/
def annotations (c : Cursor) : Except Fault (List Shape × Cursor) :=
  if c.atOp ['@'] then
    match _h : c.annotationAttachment with
    | .error fault => .error fault
    | .ok (s, after) =>
      match annotations after with
      | .error fault => .error fault
      | .ok (more, last) => .ok (s :: more, last)
  else .ok ([], c)
termination_by c.rest.length
decreasing_by exact annotationAttachment_lt _h

theorem annotations_le {c c' : Cursor} {ss : List Shape} (h : c.annotations = .ok (ss, c')) :
    c'.rest.length ≤ c.rest.length := by
  fun_induction annotations c generalizing ss c' with
  | case1 => simp at h
  | case2 => simp at h
  | case3 c _ s after ha more last hm ih =>
    cases h
    exact Nat.le_trans (ih hm) (Nat.le_of_lt (annotationAttachment_lt ha))
  | case4 =>
    cases h
    exact Nat.le_refl _

/-- Reads the words of `allowed` that come next. -/
def qualifiers (allowed : List Text) (c : Cursor) : List Text × Cursor :=
  match _hc : c.rest with
  | [] => ([], c)
  | l :: _ =>
    if l.kind = .ident && allowed.contains l.text then
      let (more, last) := qualifiers allowed c.advance
      (l.text :: more, last)
    else ([], c)
termination_by c.rest.length
decreasing_by simp [advance_rest, _hc]

theorem qualifiers_le (allowed : List Text) (c : Cursor) :
    (qualifiers allowed c).2.rest.length ≤ c.rest.length := by
  fun_induction qualifiers allowed c with
  | case1 => exact Nat.le_refl _
  | case2 c l ls hc hw more last hq ih =>
    rw [hq] at ih
    exact Nat.le_trans ih c.advance_le
  | case3 => exact Nat.le_refl _

/-- The keywords of the qualifiers read from a cursor, one node each. -/
def qualifierShapes (c : Cursor) (words : List Text) : List Shape :=
  words.mapIdx fun k _ => .leaf .keyword (c.index + k)

/-- Reads a member of no interest: up to a semicolon, or past a block and a semicolon behind it. -/
def otherMember (first : Nat) (c : Cursor) : Except Fault (Shape × Cursor) := do
  let stop ← c.scan fun previous l =>
    if l.isOp [';'] || opensBlock previous l then .stop else .plain l
  if stop.atEnd then stop.fail .endOfFile
  else if stop.atOp [';'] then
    return (.node .other first stop.advance.index .none [], stop.advance)
  else
    let last := (← stop.skipGroup .brace).skipSemicolon
    return (.node .other first last.index .none [], last)

theorem otherMember_lt {first : Nat} {c c' : Cursor} {s : Shape}
    (h : otherMember first c = .ok (s, c')) : c'.rest.length < c.rest.length := by
  unfold otherMember at h
  simp only [bind, Except.bind, pure, Except.pure] at h
  split at h
  · simp at h
  · rename_i stop hs
    have hle := scan_le hs
    split at h
    · simp [fail] at h
    · rename_i he
      have hend : stop.atEnd = false := by simpa using he
      split at h
      · cases h
        exact Nat.lt_of_lt_of_le (advance_lt hend) hle
      · split at h
        · simp at h
        · rename_i last hg
          cases h
          exact Nat.lt_of_le_of_lt (skipSemicolon_le _)
            (Nat.lt_of_lt_of_le (skipGroup_lt hg hend) hle)

/-- Reads a member, and gets past one lexeme at least. -/
structure Reader where
  read : Cursor → Except Fault (Shape × Cursor)
  progress : ∀ {c s c'}, read c = .ok (s, c') → c'.rest.length < c.rest.length

/-- Reads members up to the end of the source or to a place where `closed` holds. Semicolons
between them are passed over and a stray closing bracket is refused. -/
def members (item : Reader) (closed : Cursor → Bool) (c : Cursor) :
    Except Fault (List Shape × Cursor) :=
  if _he : c.atEnd then .ok ([], c)
  else if closed c then .ok ([], c)
  else if c.atOp [';'] then members item closed c.advance
  else
    match c.rejectClosing with
    | .error fault => .error fault
    | .ok () =>
      match _h : item.read c with
      | .error fault => .error fault
      | .ok (s, after) =>
        match members item closed after with
        | .error fault => .error fault
        | .ok (more, last) => .ok (s :: more, last)
termination_by c.rest.length
decreasing_by
  · exact advance_lt (by simpa using _he)
  · exact item.progress _h

theorem members_le {item : Reader} {closed : Cursor → Bool} {c c' : Cursor} {ss : List Shape}
    (h : members item closed c = .ok (ss, c')) : c'.rest.length ≤ c.rest.length := by
  fun_induction members item closed c generalizing ss c' with
  | case1 =>
    cases h
    exact Nat.le_refl _
  | case2 =>
    cases h
    exact Nat.le_refl _
  | case3 c _ _ _ ih => exact Nat.le_trans (ih h) c.advance_le
  | case4 => simp at h
  | case5 => simp at h
  | case6 => simp at h
  | case7 c _ _ _ _ s after ha more last hm ih =>
    cases h
    exact Nat.le_trans (ih hm) (Nat.le_of_lt (item.progress ha))

end BalMediation.Cursor
