import BalMediation.Shape.Service

/-!
# Modules

The members of a module: import declarations, service declarations, functions, and members of no
interest. `Shape.members` reads them all from the lexemes of a source.
-/

namespace BalMediation

namespace Cursor

/-- The qualifiers of a module's members. -/
def moduleQualifiers : List Text :=
  ["public", "private", "isolated", "final", "configurable", "client", "readonly", "distinct",
    "transactional"].map String.toList

/-- Reads an import declaration from its keyword on. It is named by the lexemes up to `as` or the
semicolon; an identifier behind `as` is its child, and the rest up to the semicolon is passed
over. -/
def importDeclaration (c : Cursor) : Except Fault (Shape × Cursor) := do
  let module := c.advance
  let stop ← module.scan fun _ l => if l.isOp [';'] || l.isWord "as".toList then .stop else .pass
  let name := Label.name ((module.lexemesTo stop).flatMap (·.text))
  if stop.atEnd then stop.fail .importEnd
  else if stop.atOp [';'] then
    return (.node .importDeclaration c.index stop.advance.index name [], stop.advance)
  else
    let given := stop.advance
    let (children, after) :=
      if given.atIdent then ([Shape.leaf .identifier given.index], given.advance)
      else ([], given)
    let last ← after.scan fun _ l => if l.isOp [';'] then .stop else .pass
    if last.atEnd then last.fail (.expected [';'] none)
    else return (.node .importDeclaration c.index last.advance.index name children, last.advance)

/-- Reads a member of a module. -/
def moduleMember (c : Cursor) : Except Fault (Shape × Cursor) := do
  let (annotated, bare) ← c.annotations
  let (words, keyword) := bare.qualifiers moduleQualifiers
  let leading := annotated ++ bare.qualifierShapes words
  if keyword.atWord "import".toList && leading.isEmpty then keyword.importDeclaration
  else if keyword.atWord "service".toList && !keyword.advance.atWord "class".toList then
    keyword.service c.index leading
  else if keyword.atWord "function".toList && !keyword.advance.atOp ['('] then
    keyword.function .functionDefinition c.index leading
  else keyword.otherMember c.index

theorem importDeclaration_lt {c c' : Cursor} {s : Shape} (h : c.importDeclaration = .ok (s, c')) :
    c'.rest.length < c.rest.length := by
  unfold importDeclaration at h
  simp only [bind, Except.bind, pure, Except.pure] at h
  split at h
  · simp at h
  · rename_i stop hs
    have h1 := scan_le hs
    have h2 := c.advance_le
    split at h
    · simp [fail] at h
    · rename_i he
      have h3 := advance_lt (c := stop) (by simpa using he)
      split at h
      · cases h
        omega
      · split at h
        · simp at h
        · rename_i last hl
          split at h
          · simp [fail] at h
          · cases h
            have h4 := advance_le last
            have h5 := scan_le hl
            split at h5
            · have h6 := advance_le stop.advance
              simp only at h5
              omega
            · simp only at h5
              omega

theorem moduleMember_lt {c c' : Cursor} {s : Shape} (h : c.moduleMember = .ok (s, c')) :
    c'.rest.length < c.rest.length := by
  unfold moduleMember at h
  simp only [bind, Except.bind] at h
  split at h
  · simp at h
  · rename_i ha
    have hle := Nat.le_trans (qualifiers_le moduleQualifiers _) (annotations_le ha)
    split at h
    · exact Nat.lt_of_lt_of_le (importDeclaration_lt h) hle
    · split at h
      · exact Nat.lt_of_lt_of_le (service_lt h) hle
      · split at h
        · exact Nat.lt_of_lt_of_le (function_lt h) hle
        · exact Nat.lt_of_lt_of_le (otherMember_lt h) hle

end Cursor

/-- The members of the module that the lexemes spell. -/
def Shape.members (lexemes : List Lexeme) : Except Fault (List Shape) :=
  ((Cursor.start lexemes).members ⟨Cursor.moduleMember, Cursor.moduleMember_lt⟩
    fun _ => false).map (·.1)

end BalMediation
