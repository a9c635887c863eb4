import BalMediation.Shape.Member

/-!
# Functions

A function has a name, a resource accessor also a path behind it, then a signature and a body. The
signature's parameters are the runs of lexemes between its top-level commas. A body is a block, an
expression or external body up to a semicolon, or a bare semicolon.
-/

namespace BalMediation.Cursor

/-- The lexemes between two cursors of one source. -/
def lexemesTo (c stop : Cursor) : List Lexeme :=
  c.rest.take (stop.index - c.index)

/-- Reads the path of a resource accessor, which has one lexeme at least. -/
def resourcePath (c : Cursor) : Except Fault (Shape × Cursor) := do
  let stop ← c.scan fun _ l =>
    if l.isOp ['('] || l.isOp ['\x7b'] || l.isOp [';'] then .stop
    else if l.isOp ['['] then .group .square
    else .pass
  if !stop.atOp ['('] then stop.fail .pathEnd
  else if stop.index = c.index then stop.fail .pathMissing
  else return (.span .resourcePath c.index stop.index, stop)

/-- Reads what stands between the name of a function and its signature: the path of a resource
accessor, nothing for the other kinds. -/
def accessPath (c : Cursor) (kind : Kind) : Except Fault (List Shape × Cursor) :=
  if kind = .resourceAccessorDefinition then do
    let (path, after) ← c.resourcePath
    return ([path], after)
  else .ok ([], c)

/-- The runs of lexemes between the commas that lie in no bracket, as ranges of token numbers.
`index` is the number of the next lexeme, `depth` counts the brackets around it and `first` is the
beginning of the run it belongs to. -/
def commaRuns (index depth : Nat) (first : Option Nat) : List Lexeme → List (Nat × Nat)
  | [] => first.toList.map (·, index)
  | l :: ls =>
    if depth = 0 && l.isOp [','] then
      first.toList.map (·, index) ++ commaRuns (index + 1) 0 none ls
    else
      let depth :=
        if l.opens?.isSome then depth + 1 else if l.closes?.isSome then depth - 1 else depth
      commaRuns (index + 1) depth (some (first.getD index)) ls

/-- Reads `returns`, annotations and a type, which has one lexeme at least. -/
def returnType (c : Cursor) : Except Fault (Shape × Cursor) := do
  let (annotated, type) ← c.advance.annotations
  let stop ← type.scan fun previous l =>
    if l.isOp "=>".toList || l.isOp ['='] || l.isOp [';'] || opensBlock previous l then .stop
    else .plain l
  if stop.index = type.index then stop.fail .returnType
  else
    let children :=
      .leaf .keyword c.index :: annotated ++ [.span .typeDescriptor type.index stop.index]
    return (.node .returnTypeDescriptor c.index stop.index .none children, stop)

/-- Reads the parameters in their parentheses and the return type, if there is one. -/
def signature (c : Cursor) : Except Fault (Shape × Cursor) :=
  if !c.atOp ['('] then c.fail (.expected ['('] (c.head?.map (·.text)))
  else do
    let inside := c.advance
    let close ← inside.scan fun _ l => if l.isOp [')'] then .stop else .plain l
    if close.atEnd then c.fail (.unbalanced ['('])
    else
      let runs := commaRuns inside.index 0 none (inside.lexemesTo close)
      let parameters := runs.map fun (i, j) => Shape.span .parameter i j
      let children := .leaf .openParen c.index :: parameters ++ [.leaf .closeParen close.index]
      let after := close.advance
      if after.atWord "returns".toList then
        let (type, last) ← after.returnType
        return (.node .functionSignature c.index last.index .none (children ++ [type]), last)
      else return (.node .functionSignature c.index after.index .none children, after)

/-- Reads a body. A bare semicolon leaves no node. -/
def body (c : Cursor) : Except Fault (Option Shape × Cursor) :=
  if c.atOp ['\x7b'] then do
    let last ← c.skipGroup .brace
    let children := [.leaf .openBrace c.index, .leaf .closeBrace (last.index - 1)]
    return (some (.node .functionBodyBlock c.index last.index .none children), last)
  else if c.atOp "=>".toList || c.atOp ['='] then do
    let kind :=
      if c.atOp "=>".toList then Kind.expressionFunctionBody else .externalFunctionBody
    let stop ← c.scan fun _ l => if l.isOp [';'] then .stop else .plain l
    if stop.atEnd then stop.fail .bodyEnd
    else return (some (.node kind c.index stop.advance.index .none []), stop.advance)
  else if c.atOp [';'] then .ok (none, c.advance)
  else c.fail .bodyMissing

/-- Reads a function from its keyword on. `leading` holds the nodes in front of the keyword, and
`first` the number of the token where they begin. -/
def function (kind : Kind) (first : Nat) (leading : List Shape) (c : Cursor) :
    Except Fault (Shape × Cursor) :=
  let name := c.advance
  if !name.atIdent then name.fail .functionName
  else do
    let (path, afterPath) ← name.advance.accessPath kind
    let (signature, afterSignature) ← afterPath.signature
    let (body, last) ← afterSignature.body
    let children :=
      leading ++ [.leaf .keyword c.index, .leaf .identifier name.index] ++ path ++ [signature] ++
        body.toList
    return (.node kind first last.index .none children, last)

theorem resourcePath_le {c c' : Cursor} {s : Shape} (h : c.resourcePath = .ok (s, c')) :
    c'.rest.length ≤ c.rest.length := by
  unfold resourcePath at h
  simp only [bind, Except.bind, pure, Except.pure] at h
  split at h
  · simp at h
  · rename_i stop hs
    split at h
    · simp [fail] at h
    · split at h
      · simp [fail] at h
      · cases h
        exact scan_le hs

theorem accessPath_le {kind : Kind} {c c' : Cursor} {ss : List Shape}
    (h : c.accessPath kind = .ok (ss, c')) : c'.rest.length ≤ c.rest.length := by
  unfold accessPath at h
  simp only [bind, Except.bind, pure, Except.pure] at h
  split at h
  · split at h
    · simp at h
    · rename_i hr
      cases h
      exact resourcePath_le hr
  · cases h
    exact Nat.le_refl _

theorem returnType_le {c c' : Cursor} {s : Shape} (h : c.returnType = .ok (s, c')) :
    c'.rest.length ≤ c.rest.length := by
  unfold returnType at h
  simp only [bind, Except.bind, pure, Except.pure] at h
  split at h
  · simp at h
  · rename_i ha
    split at h
    · simp at h
    · rename_i stop hs
      split at h
      · simp [fail] at h
      · cases h
        exact Nat.le_trans (scan_le hs) (Nat.le_trans (annotations_le ha) c.advance_le)

theorem signature_le {c c' : Cursor} {s : Shape} (h : c.signature = .ok (s, c')) :
    c'.rest.length ≤ c.rest.length := by
  unfold signature at h
  simp only [bind, Except.bind, pure, Except.pure] at h
  split at h
  · simp [fail] at h
  · split at h
    · simp at h
    · rename_i close hs
      have hle : close.advance.rest.length ≤ c.rest.length :=
        Nat.le_trans (advance_le _) (Nat.le_trans (scan_le hs) c.advance_le)
      split at h
      · simp [fail] at h
      · split at h
        · split at h
          · simp at h
          · rename_i ht
            cases h
            exact Nat.le_trans (returnType_le ht) hle
        · cases h
          exact hle

theorem body_le {c c' : Cursor} {s : Option Shape} (h : c.body = .ok (s, c')) :
    c'.rest.length ≤ c.rest.length := by
  unfold body at h
  simp only [bind, Except.bind, pure, Except.pure] at h
  split at h
  · split at h
    · simp at h
    · rename_i hg
      cases h
      exact skipGroup_le hg
  · split at h
    · split at h
      · simp at h
      · rename_i hs
        split at h
        · simp [fail] at h
        · cases h
          exact Nat.le_trans (advance_le _) (scan_le hs)
    · split at h
      · cases h
        exact advance_le _
      · simp [fail] at h

theorem function_lt {kind : Kind} {first : Nat} {leading : List Shape} {c c' : Cursor} {s : Shape}
    (h : function kind first leading c = .ok (s, c')) : c'.rest.length < c.rest.length := by
  unfold function at h
  simp only [bind, Except.bind, pure, Except.pure] at h
  split at h
  · simp [fail] at h
  · rename_i hn
    have hname : c.advance.advance.rest.length < c.rest.length :=
      Nat.lt_of_lt_of_le (advance_lt (atEnd_of_atIdent (by simpa using hn))) c.advance_le
    split at h
    · simp at h
    · rename_i path hp
      split at h
      · simp at h
      · rename_i hs
        split at h
        · simp at h
        · rename_i hb
          cases h
          exact Nat.lt_of_le_of_lt
            (Nat.le_trans (body_le hb) (Nat.le_trans (signature_le hs) (accessPath_le hp))) hname

end BalMediation.Cursor
