import BalMediation.Console.Markup
import BalMediation.Node
import BalMediation.Text.Quoted

/-!
# Outlines

A syntax tree as an outline: one line for each node, under guides that show the nesting. A line
gives the node's kind, its offsets and the beginning of its text.
-/

namespace BalMediation.Outline

/-- The longest text that is shown whole. -/
def maxLength : Nat := 60

/-- A text cut to the longest that is shown. -/
def shorten (t : Text) : Text :=
  if t.length ≤ maxLength then t else t.take (maxLength - 3) ++ "...".toList

/-- The line of a node, with markup. -/
def label (n : Node) : Text :=
  Markup.styled "bold" n.kind.name ++ " [".toList ++ Text.ofNat n.start ++ ", ".toList ++
    Text.ofNat n.stop ++ ")".toList ++
    (if n.text.isEmpty then [] else ' ' :: Markup.escape (shorten n.text).quoted)

/-- The line of a node as it is shown behind its guides. -/
def line (guides : Text) (n : Node) : Except MarkupFault Text := do
  return guides ++ (← Markup.plain (label n)) ++ ['\n']

mutual

/-- The lines of the nodes below a node. `guides` stands in front of the lines of its children. -/
def below (guides : Text) : Node → Except MarkupFault Text
  | ⟨_, _, _, _, _, _, children⟩ => siblings guides children

/-- The lines of nodes with one parent, and of those below them. -/
def siblings (guides : Text) : List Node → Except MarkupFault Text
  | [] => .ok []
  | n :: ns => do
    let last := ns.isEmpty
    let first ← line (guides ++ (if last then "└── " else "├── ").toList) n
    let inner ← below (guides ++ (if last then "    " else "│   ").toList) n
    let rest ← siblings guides ns
    return first ++ inner ++ rest

end

/-- The outline of a tree. -/
def render (root : Node) : Except MarkupFault Text := do
  let first ← line [] root
  let rest ← below [] root
  return first ++ rest

end BalMediation.Outline
