import BalMediation.Proofs.Nesting
import BalMediation.Tree

/-!
# Branches

A branch is a node with the words it is made of, or a word outside of every node. Its shape counts
the words; its nodes carry offsets, rows, columns and texts, and need to know only the text in
front of the branch and the blanks behind it.

Putting the shapes of branches where their tokens stand gives the nodes of the branches
(`placeAll_shapesAll`), so a source that is spelled by branches has their nodes as its tree
(`parse_of_members`).
-/

namespace BalMediation

/-- A node with the words it is made of, or a word outside of every node. -/
inductive Branch where
  | word (w : Word)
  | node (kind : Kind) (label : Label) (branches : List Branch)

/-- The text of words without the gap in front of the first. -/
def caption : List Word → Text
  | [] => []
  | w :: ws => w.lexeme.text ++ spell ws

/-- The gap in front of words; if there are none, `next` is what comes instead. -/
def gapBefore (next : Text) : List Word → Text
  | [] => next
  | w :: _ => w.gap

@[simp] theorem gapBefore_nil (next : Text) : gapBefore next [] = next := rfl

@[simp] theorem gapBefore_cons (next : Text) (w : Word) (ws : List Word) :
    gapBefore next (w :: ws) = w.gap := rfl

@[simp] theorem gapBefore_append (next : Text) (as bs : List Word) :
    gapBefore next (as ++ bs) = gapBefore (gapBefore next bs) as := by
  cases as <;> rfl

theorem gapBefore_caption {ws : List Word} (h : ws ≠ []) (next : Text) :
    gapBefore next ws ++ caption ws = spell ws := by
  cases ws with
  | nil => exact absurd rfl h
  | cons w ws => simp [caption]

/-- The row and column just past a text. -/
def Text.endPoint (t : Text) : Position :=
  t.locate t.length

namespace Branch

/-- A single word, with its text. -/
def leaf (kind : Kind) (w : Word) : Branch :=
  node kind .own [word w]

/-- Some words, with their text. -/
def span (kind : Kind) (ws : List Word) : Branch :=
  node kind .own (ws.map word)

mutual

/-- The words of a branch. -/
def words : Branch → List Word
  | word w => [w]
  | node _ _ branches => wordsAll branches

/-- The words of branches, one after the other. -/
def wordsAll : List Branch → List Word
  | [] => []
  | p :: ps => words p ++ wordsAll ps

end

mutual

/-- The shape of a branch whose first word has number `i`; a word has none. -/
def shapes (i : Nat) : Branch → List Shape
  | word _ => []
  | node kind label branches =>
    [.node kind i (i + (wordsAll branches).length) label (shapesAll i branches)]

/-- The shapes of branches, one after the other. -/
def shapesAll (i : Nat) : List Branch → List Shape
  | [] => []
  | p :: ps => shapes i p ++ shapesAll (i + (words p).length) ps

end

/-- What a node with this label carries. -/
def labelled (ws : List Word) : Label → Option Text
  | .none => none
  | .own => some (caption ws)
  | .name t => some t

/-- The node over words that stand behind the text `before` and in front of the gap `next`. -/
def nodeOver (before next : Text) (kind : Kind) (label : Label) (ws : List Word)
    (children : List Node) : Node :=
  ⟨kind, (before ++ gapBefore next ws).length, (before ++ spell ws).length,
    (before ++ gapBefore next ws).endPoint, (before ++ spell ws).endPoint, labelled ws label,
    children⟩

mutual

/-- The node of a branch that stands behind the text `before` and in front of the gap `next`. -/
def nodes (before next : Text) : Branch → List Node
  | word _ => []
  | node kind label branches =>
    [nodeOver before next kind label (wordsAll branches) (nodesAll before next branches)]

/-- The nodes of branches, one after the other. -/
def nodesAll (before next : Text) : List Branch → List Node
  | [] => []
  | p :: ps =>
    nodes before (gapBefore next (wordsAll ps)) p ++ nodesAll (before ++ spell (words p)) next ps

end

@[simp] theorem words_word (w : Word) : words (word w) = [w] := by rw [words]

@[simp] theorem words_node (kind : Kind) (label : Label) (ps : List Branch) :
    words (node kind label ps) = wordsAll ps := by rw [words]

@[simp] theorem wordsAll_nil : wordsAll [] = [] := by rw [wordsAll]

@[simp] theorem wordsAll_cons (p : Branch) (ps : List Branch) :
    wordsAll (p :: ps) = words p ++ wordsAll ps := by rw [wordsAll]

@[simp] theorem wordsAll_append (ps qs : List Branch) :
    wordsAll (ps ++ qs) = wordsAll ps ++ wordsAll qs := by
  induction ps with
  | nil => simp
  | cons p ps ih => simp [ih]

@[simp] theorem wordsAll_words (ws : List Word) : wordsAll (ws.map word) = ws := by
  induction ws with
  | nil => simp
  | cons w ws ih => simp [ih]

@[simp] theorem words_leaf (kind : Kind) (w : Word) : words (leaf kind w) = [w] := by
  simp [leaf]

@[simp] theorem wordsAll_leaves (kind : Kind) (ws : List Word) :
    wordsAll (ws.map (leaf kind)) = ws := by
  induction ws with
  | nil => simp
  | cons w ws ih => simp [ih]

@[simp] theorem words_span (kind : Kind) (ws : List Word) : words (span kind ws) = ws := by
  simp [span]

@[simp] theorem shapes_word (i : Nat) (w : Word) : shapes i (word w) = [] := by rw [shapes]

@[simp] theorem shapes_node (i : Nat) (kind : Kind) (label : Label) (ps : List Branch) :
    shapes i (node kind label ps)
      = [.node kind i (i + (wordsAll ps).length) label (shapesAll i ps)] := by rw [shapes]

@[simp] theorem shapesAll_nil (i : Nat) : shapesAll i [] = [] := by rw [shapesAll]

@[simp] theorem shapesAll_cons (i : Nat) (p : Branch) (ps : List Branch) :
    shapesAll i (p :: ps) = shapes i p ++ shapesAll (i + (words p).length) ps := by rw [shapesAll]

@[simp] theorem shapesAll_append (i : Nat) (ps qs : List Branch) :
    shapesAll i (ps ++ qs) = shapesAll i ps ++ shapesAll (i + (wordsAll ps).length) qs := by
  induction ps generalizing i with
  | nil => simp
  | cons p ps ih => simp [ih, Nat.add_assoc]

@[simp] theorem shapesAll_words (i : Nat) (ws : List Word) : shapesAll i (ws.map word) = [] := by
  induction ws generalizing i with
  | nil => simp
  | cons w ws ih => simp [ih]

@[simp] theorem shapes_leaf (i : Nat) (kind : Kind) (w : Word) :
    shapes i (leaf kind w) = [Shape.leaf kind i] := by
  simp [leaf, Shape.leaf]

@[simp] theorem shapes_span (i : Nat) (kind : Kind) (ws : List Word) :
    shapes i (span kind ws) = [Shape.span kind i (i + ws.length)] := by
  simp [span, Shape.span]

section Nodes

variable (before next : Text)

@[simp] theorem nodes_word (w : Word) : nodes before next (word w) = [] := by rw [nodes]

@[simp] theorem nodes_node (kind : Kind) (label : Label) (ps : List Branch) :
    nodes before next (node kind label ps)
      = [nodeOver before next kind label (wordsAll ps) (nodesAll before next ps)] := by rw [nodes]

@[simp] theorem nodesAll_nil : nodesAll before next [] = [] := by rw [nodesAll]

@[simp] theorem nodesAll_cons (p : Branch) (ps : List Branch) :
    nodesAll before next (p :: ps)
      = nodes before (gapBefore next (wordsAll ps)) p
        ++ nodesAll (before ++ spell (words p)) next ps := by rw [nodesAll]

@[simp] theorem nodesAll_append (ps qs : List Branch) :
    nodesAll before next (ps ++ qs)
      = nodesAll before (gapBefore next (wordsAll qs)) ps
        ++ nodesAll (before ++ spell (wordsAll ps)) next qs := by
  induction ps generalizing before with
  | nil => simp
  | cons p ps ih => simp [ih]

@[simp] theorem nodesAll_words (ws : List Word) : nodesAll before next (ws.map word) = [] := by
  induction ws generalizing before with
  | nil => simp
  | cons w ws ih => simp [ih]

end Nodes

end Branch

theorem Node.walkAll_append (as bs : List Node) :
    walkAll (as ++ bs) = walkAll as ++ walkAll bs := by
  induction as with
  | nil => simp [walkAll]
  | cons a as ih => simp [walkAll, ih]

/-! ## Landmarks -/

namespace Text

theorem locateFrom_append (row column : Nat) (a b : Text) (n : Nat) :
    locateFrom row column (a ++ b) (a.length + n)
      = locateFrom (locateFrom row column a a.length).row
          (locateFrom row column a a.length).column b n := by
  induction a generalizing row column with
  | nil => simp [locateFrom]
  | cons c a ih =>
    rw [List.cons_append, List.length_cons, Nat.add_right_comm, locateFrom, locateFrom]
    split
    · exact ih (row + 1) 0
    · exact ih row (column + 1)

theorem endPoint_append (a b : Text) :
    (a ++ b).endPoint = locateFrom a.endPoint.row a.endPoint.column b b.length := by
  unfold endPoint locate
  rw [List.length_append, locateFrom_append]

theorem locateFrom_endPoint (a b c : Text) :
    locateFrom a.endPoint.row a.endPoint.column (b ++ c) b.length = (a ++ b).endPoint := by
  have := locateFrom_append a.endPoint.row a.endPoint.column b c 0
  rw [Nat.add_zero] at this
  rw [this, endPoint_append]
  cases c <;> rfl

end Text

namespace Tree

open Lexer

theorem landmarks_getElem? (pre : List Word) (w : Word) (post : List Word) (before tail : Text) :
    (landmarks before.length before.endPoint (spell (pre ++ w :: post) ++ tail)
        (tokensFrom before.length (pre ++ w :: post)))[pre.length]?
      = some ⟨(before ++ spell pre ++ w.gap).length, (before ++ spell pre ++ w.text).length,
          (before ++ spell pre ++ w.gap).endPoint, (before ++ spell pre ++ w.text).endPoint,
          w.lexeme.text ++ spell post ++ tail⟩ := by
  induction pre generalizing before with
  | nil =>
    simp only [List.nil_append, tokensFrom, landmarks, List.length_nil, List.getElem?_cons_zero,
      spell_cons, spell_nil, List.append_nil, Nat.add_sub_cancel_left, List.append_assoc,
      List.drop_left, Option.some.injEq, Landmark.mk.injEq, Token.stop, Word.text, and_true,
      List.length_append, Text.locateFrom_endPoint, true_and]
    omega
  | cons v pre ih =>
    have hgap : before.length + v.gap.length - before.length = v.gap.length := by omega
    have hlen : (before ++ v.text).length = before.length + v.text.length := List.length_append
    have hstop : Token.stop ⟨v.lexeme, before.length + v.gap.length⟩
        = (before ++ v.text).length := by
      simp only [Token.stop, Word.text, List.length_append]
      omega
    have hpoint : Text.locateFrom (before ++ v.gap).endPoint.row (before ++ v.gap).endPoint.column
        (v.lexeme.text ++ (spell (pre ++ w :: post) ++ tail)) v.lexeme.text.length
          = (before ++ v.text).endPoint := by
      rw [Text.locateFrom_endPoint, Word.text, List.append_assoc]
    rw [List.cons_append, tokensFrom, landmarks]
    simp only [List.length_cons, List.getElem?_cons_succ, spell_cons, List.append_assoc, hgap,
      Text.locateFrom_endPoint, List.drop_left, hstop, hpoint]
    rw [← hlen]
    simpa [Word.text] using ih (before ++ v.text)

theorem placeAll_append (source : Text) (marks : Array Landmark) (as bs : List Shape) :
    placeAll source marks (as ++ bs) = placeAll source marks as ++ placeAll source marks bs := by
  induction as with
  | nil => simp [placeAll]
  | cons a as ih => simp [placeAll, ih]

section Placement

variable (ws : List Word) (tail : Text)

/-- The landmarks of a source that is spelled by words. -/
def wordMarks : Array Landmark :=
  (landmarks 0 ⟨0, 0⟩ (spell ws ++ tail) (tokensFrom 0 ws)).toArray

variable {ws}

theorem wordMarks_getElem? {pre post : List Word} {w : Word} (h : ws = pre ++ w :: post) :
    (wordMarks ws tail)[pre.length]?
      = some ⟨(spell pre ++ w.gap).length, (spell pre ++ w.text).length,
          (spell pre ++ w.gap).endPoint, (spell pre ++ w.text).endPoint,
          w.lexeme.text ++ spell post ++ tail⟩ := by
  subst h
  have := landmarks_getElem? pre w post [] tail
  rw [List.nil_append] at this
  rw [wordMarks, List.getElem?_toArray]
  exact this

theorem landmark_wordMarks {pre rest : List Word} (h : ws = pre ++ rest) :
    let mark := landmark (spell ws ++ tail) (wordMarks ws tail) pre.length
    mark.start = (spell pre ++ gapBefore tail rest).length
      ∧ mark.startPoint = (spell pre ++ gapBefore tail rest).endPoint
      ∧ (rest ≠ [] → mark.onward = caption rest ++ tail) := by
  cases rest with
  | nil =>
    rw [List.append_nil] at h
    subst h
    have hlen : (wordMarks ws tail)[ws.length]? = none := by
      have hmarks : ∀ (ts : List Token) (o : Nat) (q : Position) (r : Text),
          (landmarks o q r ts).length = ts.length := by
        intro ts
        induction ts with
        | nil => simp [landmarks]
        | cons t ts ih => simp [landmarks, ih]
      have htokens : ∀ (vs : List Word) (o : Nat), (tokensFrom o vs).length = vs.length := by
        intro vs
        induction vs with
        | nil => simp [tokensFrom]
        | cons v vs ih => simp [tokensFrom, ih]
      simp [wordMarks, hmarks, htokens]
    simp [landmark, hlen, ending, Text.endPoint]
  | cons w rest =>
    simp [landmark, wordMarks_getElem? tail h, caption]

theorem landmarkBefore_wordMarks {pre rest : List Word} (h : ws = pre ++ rest) :
    (landmarkBefore (spell ws ++ tail) (wordMarks ws tail) pre.length).stop = (spell pre).length
      ∧ (landmarkBefore (spell ws ++ tail) (wordMarks ws tail) pre.length).stopPoint
        = (spell pre).endPoint := by
  rcases List.eq_nil_or_concat pre with rfl | ⟨init, w, rfl⟩
  · simp [landmarkBefore, origin, Text.endPoint, Text.locate, Text.locateFrom]
  · rw [List.concat_eq_append, List.append_assoc] at h
    simp [landmarkBefore, wordMarks_getElem? tail h, Word.text]

theorem labelText_wordMarks {pre mid post : List Word} (h : ws = pre ++ mid ++ post)
    (label : Label) :
    labelText (landmark (spell ws ++ tail) (wordMarks ws tail) pre.length)
      ((spell (pre ++ mid)).length - (spell pre ++ gapBefore (gapBefore tail post) mid).length)
      label = Branch.labelled mid label := by
  cases label with
  | none => rfl
  | name t => rfl
  | own =>
    obtain ⟨-, -, hon⟩ := landmark_wordMarks tail (h.trans (List.append_assoc _ _ _))
    cases mid with
    | nil => simp [labelText, Branch.labelled, caption]
    | cons w mid =>
      simp only [labelText, Branch.labelled, hon (by simp), Option.some.injEq]
      have hlen : (spell (pre ++ w :: mid)).length - (spell pre ++ w.gap).length
          = (w.lexeme.text ++ spell mid).length := by
        simp only [spell_append, spell_cons, List.length_append]
        omega
      rw [gapBefore_cons, hlen]
      simp only [List.cons_append, caption, spell_append, ← List.append_assoc]
      rw [List.append_assoc _ (spell post), List.take_left]

mutual

theorem placeAll_shapes : ∀ (p : Branch) {pre post : List Word}, ws = pre ++ p.words ++ post →
    placeAll (spell ws ++ tail) (wordMarks ws tail) (p.shapes pre.length)
      = p.nodes (spell pre) (gapBefore tail post)
  | .word w, pre, post, h => by simp [placeAll]
  | .node kind label ps, pre, post, h => by
    rw [Branch.words_node] at h
    obtain ⟨hstart, hpoint, -⟩ :=
      landmark_wordMarks tail (h.trans (List.append_assoc _ _ _))
    obtain ⟨hstop, hstopPoint⟩ := landmarkBefore_wordMarks tail h
    have hchildren := placeAll_shapesAll ps h
    have hlabel := labelText_wordMarks tail h label
    rw [gapBefore_append] at hstart hpoint
    rw [List.length_append, spell_append] at hstop hstopPoint
    rw [spell_append] at hlabel
    simp only [Branch.shapes_node, Branch.nodes_node, placeAll, place, nodeBetween, Branch.nodeOver,
      hstart, hpoint, hstop, hstopPoint, hchildren, hlabel]

theorem placeAll_shapesAll : ∀ (ps : List Branch) {pre post : List Word},
    ws = pre ++ Branch.wordsAll ps ++ post →
    placeAll (spell ws ++ tail) (wordMarks ws tail) (Branch.shapesAll pre.length ps)
      = Branch.nodesAll (spell pre) (gapBefore tail post) ps
  | [], pre, post, h => by simp [placeAll]
  | p :: ps, pre, post, h => by
    have hp : ws = pre ++ p.words ++ (Branch.wordsAll ps ++ post) := by simpa using h
    have hps : ws = pre ++ p.words ++ Branch.wordsAll ps ++ post := by simpa using h
    have h1 := placeAll_shapes p hp
    have h2 := placeAll_shapesAll ps hps
    rw [List.length_append, spell_append] at h2
    rw [Branch.shapesAll_cons, Branch.nodesAll_cons, placeAll_append, h1, h2, gapBefore_append]

end

end Placement

theorem tokensFrom_toLexeme (pos : Nat) (ws : List Word) :
    (tokensFrom pos ws).map (·.toLexeme) = lexemes ws := by
  induction ws generalizing pos with
  | nil => rfl
  | cons w ws ih => simp [tokensFrom, ih]

/-- The tree of a source whose members are spelled by branches. -/
def ofBranches (source tail : Text) (ps : List Branch) : Tree :=
  ⟨source, ⟨.modulePart, 0, source.length, ⟨0, 0⟩, source.endPoint, none,
    Branch.nodesAll [] tail ps⟩⟩

theorem parse_of_members {ps : List Branch} {tail : Text} (hl : Legible (Branch.wordsAll ps) tail)
    (ht : Trailing tail)
    (hm : Shape.members (lexemes (Branch.wordsAll ps)) = .ok (Branch.shapesAll 0 ps)) :
    parse (spell (Branch.wordsAll ps) ++ tail)
      = .ok (ofBranches (spell (Branch.wordsAll ps) ++ tail) tail ps) := by
  have hs : Text.scan (spell (Branch.wordsAll ps) ++ tail)
      = .ok (tokensFrom 0 (Branch.wordsAll ps)) := scanFrom_spell hl ht 0
  have hw : Branch.wordsAll ps = [] ++ Branch.wordsAll ps ++ [] := by simp
  have hp := placeAll_shapesAll tail ps hw
  simp only [List.length_nil, spell_nil, gapBefore_nil, wordMarks] at hp
  simp only [parse, hs, tokensFrom_toLexeme, hm, hp]
  rfl

end Tree

end BalMediation
