import BalMediation.Fragment.Templated
import BalMediation.Patch

/-!
# Mediation of a document

Two passes. The first appends the boilerplate as it stands; the second reads the result and wraps
every resource with mediation code. `Mediation.batch` is the edits of the second pass and
`Mediation.patch` the document after both.
-/

namespace BalMediation.Mediation

/-- The name of the snippet that is appended. -/
def boilerplateName : Text := "boilerplate.bal".toList

/-- The document with the boilerplate at its end. -/
def appended (d : Document) (boilerplate : Text) : Except Error Document :=
  (d.apply (Patch.append d boilerplate)).mapError .edit

/-- The document after the first pass, and the edits of the second. -/
def batch (d : Document) (boilerplate : Text) (g : Generator) (width : Int) :
    Except Error (Document × List Edit) := do
  let first ← appended d boilerplate
  let tree ← (Tree.parse first.text).mapError .parse
  return (first, ← Patch.edits tree g width)

/-- The document after both passes. -/
def patch (d : Document) (boilerplate : Text) (g : Generator) (width : Int) :
    Except Error Document := do
  let (first, edits) ← batch d boilerplate g width
  (first.apply edits).mapError .edit

end BalMediation.Mediation
