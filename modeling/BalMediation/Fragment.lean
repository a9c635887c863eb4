import BalMediation.Context
import BalMediation.Error

/-!
# Fragments

A generator supplies the pieces of code that mediation puts into a source: import declarations, a
parameter in front of a resource's parameters, a return type, and two groups of statements at the
end of a resource's body.
-/

namespace BalMediation

/-- Supplies the fragments for the places that a context describes. Statements are asked for with
the level of indentation they stand at. -/
structure Generator where
  imports : Context → Except Error Text
  params : (signature : Node) → Context → Except Error Text
  returnType : (type : Node) → Context → Except Error Text
  record : Context → (level : Int) → Except Error Text
  block : Context → (level : Int) → Except Error Text

end BalMediation
