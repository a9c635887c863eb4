import BalMediation.Kind
import BalMediation.Position

/-!
# Nodes

A node of a syntax tree: its kind, the part of the source it spans, by offset and by row and
column, the text it carries, if any, and its children in source order.
-/

namespace BalMediation

/-- A node of a syntax tree. -/
structure Node where
  kind : Kind
  start : Nat
  stop : Nat
  startPoint : Position
  stopPoint : Position
  value : Option Text
  children : List Node

namespace Node

/-- The first child of a kind. -/
def firstChild? (n : Node) (kind : Kind) : Option Node :=
  n.children.find? (·.kind = kind)

/-- The children of the given kinds, in order. -/
def childrenOf (n : Node) (kinds : List Kind) : List Node :=
  n.children.filter fun c => kinds.contains c.kind

/-- The text a node carries; empty if it carries none. -/
def text (n : Node) : Text :=
  n.value.getD []

/-- The node reached from `n` by going to the children with the given numbers. -/
def descend? (n : Node) : List Nat → Option Node
  | [] => some n
  | i :: path => n.children[i]?.bind (descend? · path)

mutual

/-- A node and all below it, each before its children. -/
def walk : Node → List Node
  | ⟨kind, start, stop, startPoint, stopPoint, value, children⟩ =>
    ⟨kind, start, stop, startPoint, stopPoint, value, children⟩ :: walkAll children

/-- The walks of several nodes, one after the other. -/
def walkAll : List Node → List Node
  | [] => []
  | n :: ns => walk n ++ walkAll ns

end

end Node

end BalMediation
