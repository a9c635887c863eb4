/-!
# Tables of characters

A character class of Unicode is given as a table of closed ranges of code points.
-/

namespace BalMediation.Text

/-- Whether a character lies in one of the ranges. -/
def inRanges (table : List (Nat × Nat)) (c : Char) : Bool :=
  table.any fun (first, last) => first ≤ c.toNat && c.toNat ≤ last

theorem inRanges_iff {table : List (Nat × Nat)} {c : Char} :
    inRanges table c = true ↔ ∃ r ∈ table, r.1 ≤ c.toNat ∧ c.toNat ≤ r.2 := by
  simp [inRanges]

end BalMediation.Text
