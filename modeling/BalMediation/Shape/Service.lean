import BalMediation.Shape.Function

/-!
# Services

A service declaration: an optional type and attach path, the listener it is on, and its members in
braces. A member is a function, a resource accessor if it is qualified as one, or of no interest.
-/

namespace BalMediation.Cursor

/-- The qualifiers of a service's members. -/
def memberQualifiers : List Text :=
  ["public", "private", "isolated", "remote", "resource", "final", "transactional",
    "readonly"].map String.toList

/-- Reads a member of a service. -/
def serviceMember (c : Cursor) : Except Fault (Shape × Cursor) := do
  let (annotated, bare) ← c.annotations
  let (words, keyword) := bare.qualifiers memberQualifiers
  if keyword.atWord "function".toList then
    let kind :=
      if words.contains "resource".toList then Kind.resourceAccessorDefinition
      else .objectMethodDefinition
    keyword.function kind c.index (annotated ++ bare.qualifierShapes words)
  else keyword.otherMember c.index

theorem serviceMember_lt {c c' : Cursor} {s : Shape} (h : c.serviceMember = .ok (s, c')) :
    c'.rest.length < c.rest.length := by
  unfold serviceMember at h
  simp only [bind, Except.bind] at h
  split at h
  · simp at h
  · rename_i ha
    have hle := Nat.le_trans (qualifiers_le memberQualifiers _) (annotations_le ha)
    split at h
    · exact Nat.lt_of_lt_of_le (function_lt h) hle
    · exact Nat.lt_of_lt_of_le (otherMember_lt h) hle

/-- The nodes of what stands between `service` and `on`: a type up to the first slash or string,
and a path from there. -/
def attachPoint (c stop : Cursor) : List Shape :=
  let lexemes := c.lexemesTo stop
  let type := lexemes.takeWhile fun l => !(l.isOp ['/'] || l.kind = .string)
  let cut := c.index + type.length
  (if type.isEmpty then [] else [.span .typeDescriptor c.index cut]) ++
    (if type.length < lexemes.length then [.span .absoluteResourcePath cut stop.index] else [])

/-- Reads a service declaration from its keyword on. `leading` holds the nodes in front of the
keyword, and `first` the number of the token where they begin. -/
def service (first : Nat) (leading : List Shape) (c : Cursor) : Except Fault (Shape × Cursor) := do
  let attach := c.advance
  let on ← attach.scan fun _ l =>
    if l.isWord "on".toList || l.isOp ['\x7b'] || l.isOp [';'] then .stop else .pass
  if !on.atWord "on".toList then on.fail .serviceOn
  else
    let listener := on.advance
    let brace ← listener.scan fun _ l =>
      if l.isOp ['\x7b'] || l.isOp [';'] then .stop
      else if l.isOp ['('] then .group .paren
      else if l.isOp ['['] then .group .square
      else if l.closes?.isSome then .fail (.unexpected l.text)
      else .pass
    if !brace.atOp ['\x7b'] then brace.fail .serviceOpen
    else
      let (inner, close) ←
        brace.advance.members ⟨serviceMember, serviceMember_lt⟩ (·.atOp ['\x7d'])
      if close.atEnd then close.fail .serviceEnd
      else
        let last := close.advance.skipSemicolon
        let children :=
          leading ++ [.leaf .keyword c.index] ++ attachPoint attach on ++
            [.leaf .keyword on.index, .span .expression listener.index brace.index,
              .leaf .openBrace brace.index] ++ inner ++ [.leaf .closeBrace close.index]
        return (.node .serviceDeclaration first last.index .none children, last)

theorem service_lt {first : Nat} {leading : List Shape} {c c' : Cursor} {s : Shape}
    (h : service first leading c = .ok (s, c')) : c'.rest.length < c.rest.length := by
  unfold service at h
  simp only [bind, Except.bind, pure, Except.pure] at h
  split at h
  · simp at h
  · rename_i on hon
    split at h
    · simp [fail] at h
    · split at h
      · simp at h
      · rename_i brace hbrace
        split at h
        · simp [fail] at h
        · split at h
          · simp at h
          · rename_i inner hm
            split at h
            · simp [fail] at h
            · rename_i he
              cases h
              have h1 := skipSemicolon_le inner.2.advance
              have h2 := advance_lt (c := inner.2) (by simpa using he)
              have h3 := members_le hm
              have h4 := advance_le brace
              have h5 := scan_le hbrace
              have h6 := advance_le on
              have h7 := scan_le hon
              have h8 := advance_le c
              omega

end BalMediation.Cursor
