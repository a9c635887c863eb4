import BalMediation.Node
import BalMediation.Shape.Module

/-!
# Syntax trees

A source and the root of its tree. `Tree.parse` cuts the source into tokens, reads the shape of the
module from them and puts each node where its tokens stand.

A source without a tree is refused with a cause and the place of the token at fault, row and column
counted from one.
-/

namespace BalMediation

/-- Why a source has no syntax tree, and where. -/
structure ParseError where
  cause : Cause
  line : Nat
  column : Nat
deriving DecidableEq, Repr

namespace ParseError

/-- The error of a cause that shows at an offset of the source. -/
def ofOffset (source : Text) (offset : Nat) (cause : Cause) : ParseError :=
  let p := source.locate offset
  ⟨cause, p.row + 1, p.column + 1⟩

/-- The wording of the error. -/
def message (e : ParseError) : Text :=
  e.cause.message ++ " at line ".toList ++ Text.ofNat e.line ++ " col ".toList ++
    Text.ofNat e.column

end ParseError

/-- A source and the root of its tree. -/
structure Tree where
  source : Text
  root : Node

namespace Tree

/-- Where a token stands: its offsets, their rows and columns, and the source from there on. -/
structure Landmark where
  start : Nat
  stop : Nat
  startPoint : Position
  stopPoint : Position
  onward : Text

/-- The landmarks of tokens in source order. `offset` is where `rest` begins, and `point` is its row
and column. -/
def landmarks (offset : Nat) (point : Position) (rest : Text) : List Token → List Landmark
  | [] => []
  | t :: ts =>
    let gap := t.start - offset
    let startPoint := Text.locateFrom point.row point.column rest gap
    let onward := rest.drop gap
    let stopPoint :=
      Text.locateFrom startPoint.row startPoint.column onward t.text.length
    ⟨t.start, t.stop, startPoint, stopPoint, onward⟩ ::
      landmarks t.stop stopPoint (onward.drop t.text.length) ts

/-- The landmark of the beginning of a source. -/
def origin (source : Text) : Landmark :=
  ⟨0, 0, ⟨0, 0⟩, ⟨0, 0⟩, source⟩

/-- The landmark of the end of a source. -/
def ending (source : Text) : Landmark :=
  let point := source.locate source.length
  ⟨source.length, source.length, point, point, []⟩

/-- The text a node with this label carries, if it begins at a landmark and has some length. -/
def labelText (mark : Landmark) (length : Nat) : Label → Option Text
  | .none => none
  | .own => some (mark.onward.take length)
  | .name t => some t

/-- The node from the beginning of one landmark to the end of another. -/
def nodeBetween (a b : Landmark) (kind : Kind) (label : Label) (children : List Node) : Node :=
  ⟨kind, a.start, b.stop, a.startPoint, b.stopPoint, labelText a (b.stop - a.start) label, children⟩

/-- The landmark of token number `i`; past the last token, the end of the source. -/
def landmark (source : Text) (marks : Array Landmark) (i : Nat) : Landmark :=
  marks[i]?.getD (ending source)

/-- The landmark of the token before number `i`; before the first token, the beginning. -/
def landmarkBefore (source : Text) (marks : Array Landmark) : Nat → Landmark
  | 0 => origin source
  | i + 1 => marks[i]?.getD (origin source)

mutual

/-- Puts a node where its tokens stand. -/
def place (source : Text) (marks : Array Landmark) : Shape → Node
  | .node kind first stop label children =>
    nodeBetween (landmark source marks first) (landmarkBefore source marks stop) kind label
      (placeAll source marks children)

/-- Puts each node where its tokens stand. -/
def placeAll (source : Text) (marks : Array Landmark) : List Shape → List Node
  | [] => []
  | s :: ss => place source marks s :: placeAll source marks ss

end

/-- Where token number `i` begins; past the last token, the end of the source. -/
def tokenStart (source : Text) (tokens : List Token) (i : Nat) : Nat :=
  (tokens[i]?.map (·.start)).getD source.length

/-- The syntax tree of a source. -/
def parse (source : Text) : Except ParseError Tree :=
  match source.scan with
  | .error fault => .error (.ofOffset source fault.offset (.lexical fault.cause))
  | .ok tokens =>
    match Shape.members (tokens.map (·.toLexeme)) with
    | .error fault => .error (.ofOffset source (tokenStart source tokens fault.token) fault.cause)
    | .ok members =>
      let marks := (landmarks 0 ⟨0, 0⟩ source tokens).toArray
      .ok ⟨source, nodeBetween (origin source) (ending source) .modulePart .none
        (placeAll source marks members)⟩

/-- The part of the source that a node spans. -/
def textOf (t : Tree) (n : Node) : Text :=
  t.source.slice n.start n.stop

end Tree

end BalMediation
